import Wenlan.Presence.Review
import Wenlan.Support.JsonText
import Wenlan.Support.Transition

/-!
# Reviews come from gestures

Runs of the app that mints, of anyone who submits, of the writers of pages and of the secret file.
The MAC is unforgeable in the sense that nobody submits one for bytes that were not minted under the
secret.
-/

namespace Wenlan.Presence

open Support (Json KeyTable)
open Support.Transition

structure PresenceRequest where
  action : PresenceAction
  targetIds : Texts
  baseDigest : Text
  callerId : Text
  operationId : Text

/-- `[u8; NONCE_LEN]`. -/
def Nonce := { bytes : List UInt8 // bytes.length = 16 }

def Nonce.forSigning (nonce : Nonce) : Bytes :=
  ⟨nonce.val, by rw [nonce.property]; decide⟩

/-- What `mint_in` signs. -/
def mintSigned (request : PresenceRequest) (nonce : Nonce) (now : UInt64) : Signed where
  protocolVersion := protocolVersionNow
  action := request.action
  targetIds := request.targetIds
  baseDigest := request.baseDigest
  callerId := request.callerId
  operationId := request.operationId
  nonce := nonce.forSigning
  mintedAt := now
  expiresAt := saturatingAdd now capabilityTtlSecs

/-- `load_or_create_secret_in`: a file of the right length keeps its bytes, anything else makes
way for fresh ones. -/
def loadOrCreateSecret (fresh : List UInt8) : Option SecretFile → SecretFile
  | some file => if file.bytes.length = secretLen then ⟨0o600, file.bytes⟩ else ⟨0o600, fresh⟩
  | none => ⟨0o600, fresh⟩

structure Minted where
  secret : List UInt8
  signed : Signed

namespace ReviewDb

/-- The pages as their writers leave them; a page that is gone takes its truth row along. -/
def editPages (pages : KeyTable String PageRow) (db : ReviewDb) : ReviewDb :=
  { db with
    pages := pages
    truth := KeyTable.deleteWhere (fun key _ => decide (key ∉ pages)) db.truth }

def carriesReview (version : Int) (digest : String) (row : TruthRow) : Bool :=
  row.humanReviewed && row.reviewedPageVersion == some version &&
    row.reviewedPageDigest == some digest

/-- `rename_page`, of a page that may be renamed: a new version with the same body. -/
def renamePage (library : Library) (pageId : String) (db : ReviewDb) : Option ReviewDb :=
  (db.pages.lookup pageId).map fun page =>
    { db with
      pages := db.pages.insert pageId { page with version := page.version + 1 }
      truth := KeyTable.update (fun key row =>
        if key = pageId ∧
            carriesReview page.version (revisionContentDigest library page.content) row = true then
          { row with reviewedPageVersion := some (page.version + 1) }
        else row) db.truth }

/-- The publication of a machine verdict, which may only clear the human axis. -/
def publishSupport (pageId : String) (version : Int) (now : Int64) (db : ReviewDb) : ReviewDb :=
  { db with
    truth := db.truth.insert pageId (match db.truth.lookup pageId with
      | none => ⟨false, none, none, now⟩
      | some row => { row with
          humanReviewed := row.reviewedPageVersion == some version && row.humanReviewed
          updatedAt := now }) }

end ReviewDb

structure State where
  db : ReviewDb
  file : Option SecretFile
  clock : Int64
  minted : List Minted

/-- A request to review a page; without a configured root the daemon finds no file. -/
structure Submission where
  capability : PresenceCapability
  pageId : Text
  rooted : Bool
  commits : Bool

inductive Move where
  | mint (request : PresenceRequest) (fresh : List UInt8)
  | submit (submission : Submission)
  | rotate (file : Option SecretFile)
  | edit (pages : KeyTable String PageRow)
  | rename (pageId : String)
  | publish (pageId : String) (version : Int)
  | wait (clock : Int64)

namespace State

def review (library : Library) (submission : Submission) (s : State) :
    ReviewDb × Except String ReviewOutcome :=
  s.db.reviewPageWithPresence library submission.capability submission.pageId
    (if submission.rooted then s.file else none) s.clock submission.commits

def outcome (library : Library) (submission : Submission) (s : State) :
    Except String ReviewOutcome :=
  (s.review library submission).2

def submitted (library : Library) (submission : Submission) (s : State) : State :=
  { s with db := (s.review library submission).1 }

def mint (newNonce : ℕ → Nonce) (request : PresenceRequest) (fresh : List UInt8) (s : State) :
    State :=
  let file := loadOrCreateSecret fresh s.file
  { s with
    file := some file
    minted := s.minted ++
      [⟨file.bytes, mintSigned request (newNonce s.minted.length) (asU64 s.clock)⟩] }

def next (library : Library) (newNonce : ℕ → Nonce) (s : State) : Move → Option State
  | .mint request fresh => some (s.mint newNonce request fresh)
  | .submit submission => some (s.submitted library submission)
  | .rotate file => some { s with file := file }
  | .edit pages => some { s with db := s.db.editPages pages }
  | .rename pageId => (s.db.renamePage library pageId).map fun db => { s with db := db }
  | .publish pageId version => some { s with db := s.db.publishSupport pageId version s.clock }
  | .wait clock => if s.clock ≤ clock then some { s with clock := clock } else none

def Unforged (library : Library) (s : State) (submission : Submission) : Prop :=
  ∀ secret action nonce, loadSecret s.file = .ok secret →
    parseAction submission.capability.action = some action →
    submission.capability.decodeNonce = some nonce →
    hexDecode submission.capability.mac.bytes = some (library.hmacSha256 secret
      (signedBytes (submission.capability.signed action nonce))) →
    ∃ minted ∈ s.minted, minted.secret = secret ∧
      signedBytes minted.signed = signedBytes (submission.capability.signed action nonce)

def Allowed (library : Library) (s : State) : Move → Prop
  | .submit submission => s.Unforged library submission
  | _ => True

def Step (library : Library) (newNonce : ℕ → Nonce) (s : State) (move : Move) (t : State) : Prop :=
  s.Allowed library move ∧ s.next library newNonce move = some t

def Reviewed (s : State) (page : String) (version : Int) (digest : String) : Prop :=
  ∃ row, s.db.truth.lookup page = some row ∧ row.humanReviewed = true ∧
    row.reviewedPageVersion = some version ∧ row.reviewedPageDigest = some digest

/-- The submission carries what was minted for exactly its page, within its window. -/
def Authorized (s : State) (submission : Submission) : Prop :=
  ∃ minted ∈ s.minted, ∃ nonce, submission.capability.decodeNonce = some nonce ∧
    submission.capability.signed .reviewPage nonce = minted.signed ∧
    minted.signed.targetIds = Texts.single submission.pageId ∧
    minted.signed.mintedAt ≤ asU64 s.clock ∧ asU64 s.clock < minted.signed.expiresAt

/-- Nothing was minted, reviewed or answered yet. -/
structure Fresh (s : State) : Prop where
  minted : s.minted = []
  receipts : s.db.receipts = ∅
  unreviewed : ∀ page row, s.db.truth.lookup page = some row → row.humanReviewed = false

variable {library : Library} {newNonce : ℕ → Nonce} {s t start : State} {move : Move}
  {submission : Submission} {receipt : PageReviewReceipt}

theorem marks_of_applied (h : s.outcome library submission = .ok (.applied receipt)) :
    Marks library submission.capability submission.pageId s.clock receipt s.db
      (s.submitted library submission).db :=
  (reviewInTxn_applied (review_applied h)).2

theorem submitted_of_not_applied
    (h : ∀ receipt, s.outcome library submission ≠ .ok (.applied receipt)) :
    s.submitted library submission = s := by
  unfold submitted review
  rw [review_not_applied h]

theorem wait_eq_some {clock : Int64} (h : s.next library newNonce (.wait clock) = some t) :
    s.clock ≤ clock ∧ t = { s with clock := clock } := by
  unfold next at h
  dsimp only at h
  split_ifs at h with hle
  exact ⟨hle, (Option.some.inj h).symm⟩

theorem receipt_kept (h : Step library newNonce s move t) {key : ReceiptKey} {row : ReceiptRow}
    (hrow : s.db.receipts.lookup key = some row) : t.db.receipts.lookup key = some row := by
  obtain ⟨-, hnext⟩ := h
  cases move with
  | submit submission =>
    cases hnext
    by_cases happ : ∃ receipt, s.outcome library submission = .ok (.applied receipt)
    · obtain ⟨receipt, happ⟩ := happ
      have hmarks := marks_of_applied happ
      rw [hmarks.receipts, AList.lookup_insert_ne]
      · exact hrow
      · rintro rfl
        have hnone := hmarks.fresh
        unfold ReviewDb.storedReceipt at hnone
        rw [hrow] at hnone
        cases hnone
    · rw [submitted_of_not_applied (not_exists.mp happ)]
      exact hrow
  | rename pageId =>
    obtain ⟨db, hdb, rfl⟩ := Option.map_eq_some_iff.mp hnext
    obtain ⟨page, -, rfl⟩ := Option.map_eq_some_iff.mp hdb
    exact hrow
  | wait clock =>
    obtain ⟨-, rfl⟩ := wait_eq_some hnext
    exact hrow
  | mint | rotate | edit | publish =>
    cases hnext
    exact hrow

theorem receipt_kept_of_reaches (h : Reaches (Step library newNonce) s t) {key : ReceiptKey}
    {row : ReceiptRow} (hrow : s.db.receipts.lookup key = some row) :
    t.db.receipts.lookup key = some row := by
  have hkept : ∀ s move t, s.db.receipts.lookup key = some row →
      Step library newNonce s move t → t.db.receipts.lookup key = some row := by
    intro s move t hkept hstep
    exact receipt_kept hstep hkept
  have hend := h.invariant hkept hrow
  exact hend

theorem clock_le (h : Step library newNonce s move t) : s.clock.toInt ≤ t.clock.toInt := by
  obtain ⟨-, hnext⟩ := h
  cases move with
  | wait clock =>
    obtain ⟨hle, rfl⟩ := wait_eq_some hnext
    exact Int64.le_iff_toInt_le.mp hle
  | rename pageId =>
    obtain ⟨db, -, rfl⟩ := Option.map_eq_some_iff.mp hnext
    exact Int.le_refl _
  | mint | submit | rotate | edit | publish =>
    cases hnext
    exact Int.le_refl _

theorem minted_step (h : Step library newNonce s move t) :
    t.minted = s.minted ∨ ∃ request secret, t.minted = s.minted ++
      [⟨secret, mintSigned request (newNonce s.minted.length) (asU64 s.clock)⟩] := by
  obtain ⟨-, hnext⟩ := h
  cases move with
  | mint request fresh =>
    cases hnext
    exact .inr ⟨request, _, rfl⟩
  | wait clock =>
    obtain ⟨-, rfl⟩ := wait_eq_some hnext
    exact .inl rfl
  | rename pageId =>
    obtain ⟨db, -, rfl⟩ := Option.map_eq_some_iff.mp hnext
    exact .inl rfl
  | submit | rotate | edit | publish =>
    cases hnext
    exact .inl rfl

theorem minted_kept (h : Reaches (Step library newNonce) s t) {minted : Minted}
    (hmint : minted ∈ s.minted) : minted ∈ t.minted := by
  have hkept : ∀ s move t, minted ∈ s.minted → Step library newNonce s move t →
      minted ∈ t.minted := by
    intro s move t hmem hstep
    rcases minted_step hstep with hsame | ⟨request, secret, hmore⟩
    · rw [hsame]
      exact hmem
    · rw [hmore]
      exact List.mem_append_left _ hmem
  have hend := h.invariant hkept hmint
  exact hend

theorem asU64_mono {now later : Int64} (h : now.toInt ≤ later.toInt) : asU64 now ≤ asU64 later := by
  have hnow := now.toInt_lt
  have hlater := later.toInt_lt
  unfold asU64
  rw [UInt64.le_iff_toNat_le, UInt64.toNat_ofNat', UInt64.toNat_ofNat']
  omega

/-- The mints of a run: each at a time that has come, with the next nonce. -/
structure MintsFit (newNonce : ℕ → Nonce) (s : State) : Prop where
  past : ∀ minted ∈ s.minted, minted.signed.mintedAt ≤ asU64 s.clock
  drawn : ∀ i (h : i < s.minted.length), (s.minted.get ⟨i, h⟩).signed.nonce.val = (newNonce i).val

theorem mintsFit_step (hfit : s.MintsFit newNonce) (h : Step library newNonce s move t) :
    t.MintsFit newNonce := by
  have hclock := asU64_mono (clock_le h)
  rcases minted_step h with hsame | ⟨request, secret, hmore⟩
  · constructor
    · intro minted hmem
      rw [hsame] at hmem
      exact UInt64.le_trans (hfit.past minted hmem) hclock
    · rw [hsame]
      exact hfit.drawn
  · constructor
    · intro minted hmem
      rw [hmore, List.mem_append, List.mem_singleton] at hmem
      rcases hmem with hold | rfl
      · exact UInt64.le_trans (hfit.past minted hold) hclock
      · exact hclock
    · rw [hmore]
      intro i hi
      by_cases hold : i < s.minted.length
      · rw [← hfit.drawn i hold, List.get_eq_getElem, List.get_eq_getElem,
          List.getElem_append_left hold]
      · have hlast : i = s.minted.length := by
          rw [List.length_append, List.length_singleton] at hi
          omega
        subst hlast
        rw [List.get_eq_getElem, List.getElem_append_right (Nat.le_refl _)]
        simp [mintSigned, Nonce.forSigning]

theorem mintsFit_of_reaches (hstart : start.Fresh) (h : Reaches (Step library newNonce) start s) :
    s.MintsFit newNonce := by
  have hfresh : start.MintsFit newNonce := by
    constructor
    · intro minted hmem
      rw [hstart.minted] at hmem
      cases hmem
    · intro i hi
      exfalso
      rw [hstart.minted] at hi
      exact absurd hi (Nat.not_lt_zero i)
  exact h.invariant (fun s move t => mintsFit_step) hfresh

theorem minted_unique (hfit : s.MintsFit newNonce)
    (hnonces : Set.InjOn newNonce { n | n < s.minted.length }) {minted other : Minted}
    (hmint : minted ∈ s.minted) (hother : other ∈ s.minted)
    (hsame : minted.signed.nonce = other.signed.nonce) : minted = other := by
  obtain ⟨⟨i, hi⟩, rfl⟩ := List.get_of_mem hmint
  obtain ⟨⟨j, hj⟩, rfl⟩ := List.get_of_mem hother
  have hval : (newNonce i).val = (newNonce j).val := by
    rw [← hfit.drawn i hi, ← hfit.drawn j hj, hsame]
  have hindex : i = j := hnonces hi hj (Subtype.ext hval)
  subst hindex
  rfl

theorem authorized_of_applied (hfit : s.MintsFit newNonce)
    (hunf : s.Unforged library submission)
    (h : s.outcome library submission = .ok (.applied receipt)) : s.Authorized submission := by
  obtain ⟨⟨secret, verified, hsecr, hver⟩, -⟩ := reviewInTxn_applied (review_applied h)
  have hfile : loadSecret s.file = .ok secret := by
    cases hrooted : submission.rooted with
    | true =>
      rw [hrooted, if_pos rfl] at hsecr
      exact hsecr
    | false =>
      rw [hrooted] at hsecr
      cases hsecr
  obtain ⟨hact, htarg, hwind, ⟨nonce, hnonce, hmac, -⟩, -⟩ := verify_eq_ok hver
  obtain ⟨minted, hmint, -, hbytes⟩ := hunf secret .reviewPage nonce hfile hact hnonce hmac
  have hsign := signedBytes_inj hbytes
  refine ⟨minted, hmint, nonce, hnonce, hsign.symm, ?_, hfit.past minted hmint, ?_⟩
  · rw [hsign]
    exact htarg
  · rw [hsign]
    exact hwind

/-! ## Reviewed pages -/

/-- What stands behind a mark: a submission that was applied, and the content it was about. -/
def Grounded (library : Library) (newNonce : ℕ → Nonce) (start t : State) (page : String)
    (version : Int) (digest : String) : Prop :=
  (∃ s submission receipt, Reaches (Step library newNonce) start s ∧
    s.Unforged library submission ∧ s.outcome library submission = .ok (.applied receipt) ∧
    s.Authorized submission ∧ submission.pageId.val = page ∧
    submission.capability.baseDigest.val = digest ∧
    Reaches (Step library newNonce) (s.submitted library submission) t) ∧
  ∃ u row, Reaches (Step library newNonce) start u ∧ Reaches (Step library newNonce) u t ∧
    u.db.pages.lookup page = some row ∧ row.version = version ∧
    revisionContentDigest library row.content = digest

theorem reaches_step (h : Step library newNonce s move t) : Reaches (Step library newNonce) s t :=
  ⟨[move], .single h⟩

variable {version : Int}

theorem Grounded.step {page digest : String}
    (hgroun : Grounded library newNonce start s page version digest)
    (h : Step library newNonce s move t) :
    Grounded library newNonce start t page version digest := by
  obtain ⟨⟨s', submission, receipt, hs', hunf, happ, hauth, hpage, hdig, hrest⟩,
    u, row, hu, hrestU, hrow⟩ := hgroun
  exact ⟨⟨s', submission, receipt, hs', hunf, happ, hauth, hpage, hdig,
    hrest.trans (reaches_step h)⟩, u, row, hu, hrestU.trans (reaches_step h), hrow⟩

theorem reviewed_step {page digest : String} (h : Step library newNonce s move t)
    (hrev : t.Reviewed page version digest) : s.Reviewed page version digest ∨
    (∃ submission receipt, move = .submit submission ∧
      s.outcome library submission = .ok (.applied receipt) ∧ submission.pageId.val = page ∧
      submission.capability.baseDigest.val = digest ∧
      ∃ row, s.db.pages.lookup page = some row ∧ row.version = version ∧
        revisionContentDigest library row.content = digest) ∨
    ∃ old row, s.Reviewed page old digest ∧ t.db.pages.lookup page = some row ∧
      row.version = version ∧ revisionContentDigest library row.content = digest := by
  have hstep := h
  obtain ⟨-, hnext⟩ := h
  obtain ⟨row, hrow, hhuman, hvers, hdig⟩ := hrev
  cases move with
  | mint request fresh =>
    cases hnext
    exact .inl ⟨row, hrow, hhuman, hvers, hdig⟩
  | rotate file =>
    cases hnext
    exact .inl ⟨row, hrow, hhuman, hvers, hdig⟩
  | wait clock =>
    obtain ⟨-, rfl⟩ := wait_eq_some hnext
    exact .inl ⟨row, hrow, hhuman, hvers, hdig⟩
  | edit pages =>
    cases hnext
    have hold : s.db.truth.lookup page = some row := by
      have hkept := hrow
      unfold ReviewDb.editPages at hkept
      rw [KeyTable.lookup_deleteWhere, Option.filter_eq_some_iff] at hkept
      exact hkept.1
    exact .inl ⟨row, hold, hhuman, hvers, hdig⟩
  | publish pageId published =>
    cases hnext
    unfold ReviewDb.publishSupport at hrow
    by_cases hsame : page = pageId
    · subst hsame
      rw [AList.lookup_insert] at hrow
      cases hold : s.db.truth.lookup page with
      | none =>
        rw [hold] at hrow
        cases hrow
        cases hhuman
      | some old =>
        rw [hold] at hrow
        cases hrow
        have hhum : old.humanReviewed := (Bool.and_eq_true_iff.mp hhuman).2
        exact .inl ⟨old, hold, hhum, hvers, hdig⟩
    · rw [AList.lookup_insert_ne hsame] at hrow
      exact .inl ⟨row, hrow, hhuman, hvers, hdig⟩
  | submit submission =>
    cases hnext
    by_cases happ : ∃ receipt, s.outcome library submission = .ok (.applied receipt)
    · obtain ⟨receipt, happ⟩ := happ
      obtain ⟨live, hlive, hbase, -, -, -, htruth⟩ := (marks_of_applied happ).truth
      rw [htruth] at hrow
      by_cases hsame : page = submission.pageId.val
      · subst hsame
        rw [AList.lookup_insert] at hrow
        cases hrow
        cases hvers
        cases hdig
        exact .inr (.inl ⟨submission, receipt, rfl, happ, rfl, rfl, live, hlive, rfl, hbase.symm⟩)
      · rw [AList.lookup_insert_ne hsame] at hrow
        exact .inl ⟨row, hrow, hhuman, hvers, hdig⟩
    · rw [submitted_of_not_applied (not_exists.mp happ)] at hrow
      exact .inl ⟨row, hrow, hhuman, hvers, hdig⟩
  | rename pageId =>
    obtain ⟨db, hdb, rfl⟩ := Option.map_eq_some_iff.mp hnext
    obtain ⟨live, hlive, rfl⟩ := Option.map_eq_some_iff.mp hdb
    rw [KeyTable.lookup_update] at hrow
    obtain ⟨old, hold, hchang⟩ := Option.map_eq_some_iff.mp hrow
    split_ifs at hchang with hcarri
    · obtain ⟨rfl, hcar⟩ := hcarri
      subst hchang
      dsimp only at hhuman hvers hdig
      unfold ReviewDb.carriesReview at hcar
      simp only [Bool.and_eq_true, beq_iff_eq] at hcar
      obtain ⟨⟨hhum, hversi⟩, hdiges⟩ := hcar
      cases hvers
      rw [hdiges] at hdig
      cases hdig
      exact .inr (.inr ⟨_, { live with version := live.version + 1 },
        ⟨old, hold, hhum, hversi, hdiges⟩, AList.lookup_insert _, rfl, rfl⟩)
    · subst hchang
      exact .inl ⟨old, hold, hhuman, hvers, hdig⟩

theorem grounded_of_reaches (hstart : start.Fresh) (ht : Reaches (Step library newNonce) start t)
    {page digest : String} (hrev : t.Reviewed page version digest) :
    Grounded library newNonce start t page version digest := by
  have hkept : ∀ s move t, (Reaches (Step library newNonce) start s ∧
      ∀ page version digest, s.Reviewed page version digest →
        Grounded library newNonce start s page version digest) →
      Step library newNonce s move t → Reaches (Step library newNonce) start t ∧
      ∀ page version digest, t.Reviewed page version digest →
        Grounded library newNonce start t page version digest := by
    rintro s move t ⟨hs, hgroun⟩ hstep
    have ht := hs.trans (reaches_step hstep)
    refine ⟨ht, fun page version digest hrev => ?_⟩
    rcases reviewed_step hstep hrev with hold |
      ⟨submission, receipt, rfl, happ, hpage, hdig, hrow⟩ | ⟨old, row, hold, hrow⟩
    · exact (hgroun page version digest hold).step hstep
    · have hfit := mintsFit_of_reaches hstart hs
      have hafter : t = s.submitted library submission := (Option.some.inj hstep.2).symm
      obtain ⟨row, hrow⟩ := hrow
      refine ⟨⟨s, submission, receipt, hs, hstep.1, happ,
        authorized_of_applied hfit hstep.1 happ, hpage, hdig, ?_⟩, s, row, hs,
        reaches_step hstep, hrow⟩
      rw [hafter]
      exact .refl _
    · obtain ⟨hsubm, -⟩ := (hgroun page old digest hold).step hstep
      exact ⟨hsubm, t, row, ht, .refl t, hrow⟩
  have hnone : ∀ page version digest, start.Reviewed page version digest →
      Grounded library newNonce start start page version digest := by
    rintro page version digest ⟨row, hrow, hhuman, -⟩
    rw [hstart.unreviewed page row hrow] at hhuman
    cases hhuman
  exact (ht.invariant hkept ⟨.refl start, hnone⟩).2 page version digest hrev

/-- The same intent of the same caller under the same operation, whatever carries it. -/
def SameRequest (first second : PresenceCapability) : Prop :=
  second.callerId = first.callerId ∧ second.operationId = first.operationId ∧
    second.action = first.action ∧ second.targetIds = first.targetIds ∧
    second.baseDigest = first.baseDigest

theorem receipt_on_file (happ : s.outcome library submission = .ok (.applied receipt))
    (ht : Reaches (Step library newNonce) (s.submitted library submission) t) :
    t.db.storedReceipt submission.capability.callerId submission.capability.operationId = some
      ⟨requestDigest library .reviewPage submission.capability.targetIds
        submission.capability.baseDigest, library.toJson receipt, s.clock⟩ := by
  have hmarks := marks_of_applied happ
  refine receipt_kept_of_reaches ht ?_
  rw [hmarks.receipts]
  exact AList.lookup_insert _

theorem reviewPage_of_applied (h : s.outcome library submission = .ok (.applied receipt)) :
    parseAction submission.capability.action = some .reviewPage := by
  obtain ⟨⟨secret, verified, -, hver⟩, -⟩ := reviewInTxn_applied (review_applied h)
  exact (verify_eq_ok hver).1

/-- In every run: a page is marked only through a capability that was minted for it and applied in
its window, on the content that the page then had; a nonce and an operation are applied at most
once, and a retry of an operation gets its receipt; and nothing else changes the database. -/
theorem presence_review_safety (library : Library) (newNonce : ℕ → Nonce)
    (hcodec : ∀ receipt, library.fromJson (library.toJson receipt) = some receipt)
    {start t : State} (hstart : start.Fresh) (ht : Reaches (Step library newNonce) start t)
    (hnonces : Set.InjOn newNonce { n | n < t.minted.length }) :
    (∀ page version digest, t.Reviewed page version digest →
      Grounded library newNonce start t page version digest) ∧
    (∀ s first receipt, Reaches (Step library newNonce) start s → s.Unforged library first →
      s.outcome library first = .ok (.applied receipt) →
      Reaches (Step library newNonce) (s.submitted library first) t → ∀ second,
        (t.Unforged library second → ∀ other, t.outcome library second = .ok (.applied other) →
          second.capability.decodeNonce ≠ first.capability.decodeNonce ∧
          (second.capability.callerId, second.capability.operationId) ≠
            (first.capability.callerId, first.capability.operationId)) ∧
        (SameRequest first.capability second.capability →
          t.outcome library second = .ok (.replayed receipt))) ∧
    ∀ submission, (∀ receipt, t.outcome library submission ≠ .ok (.applied receipt)) →
      t.submitted library submission = t := by
  refine ⟨fun page version digest => grounded_of_reaches hstart ht, ?_,
    fun submission => submitted_of_not_applied⟩
  intro s first receipt hs hunf happ hrest second
  have honF := receipt_on_file happ hrest
  have hoper : ∀ other, t.outcome library second = .ok (.applied other) →
      (second.capability.callerId, second.capability.operationId) ≠
        (first.capability.callerId, first.capability.operationId) := by
    intro other hother heq
    obtain ⟨hcal, hoper⟩ := Prod.mk.inj heq
    rw [← hcal, ← hoper] at honF
    have hansw := @review_on_file library second.capability second.pageId
      (if second.rooted then t.file else none) t.clock second.commits t.db receipt _ honF
    exact hansw.1 other hother
  refine ⟨fun hunfor other hother => ⟨fun hnonce => ?_, hoper other hother⟩, fun hsame => ?_⟩
  · have hfit := mintsFit_of_reaches hstart ht
    obtain ⟨minted, hmint, nonce, hfirst, hsign, -⟩ :=
      authorized_of_applied (mintsFit_of_reaches hstart hs) hunf happ
    obtain ⟨minted', hmint', nonce', hsec, hsign', -⟩ :=
      authorized_of_applied hfit hunfor hother
    have hkept : minted ∈ t.minted := by
      refine minted_kept hrest ?_
      exact hmint
    have hnonces' : nonce' = nonce := by
      rw [hfirst, hsec] at hnonce
      exact Option.some.inj hnonce
    have hsameM : minted' = minted := by
      refine minted_unique hfit hnonces hmint' hkept ?_
      rw [← hsign, ← hsign']
      exact hnonces'
    have hsam : second.capability.signed .reviewPage nonce' =
        first.capability.signed .reviewPage nonce := by
      rw [hsign, hsign', hsameM]
    have hcal := congrArg Signed.callerId hsam
    have hop := congrArg Signed.operationId hsam
    exact hoper other hother (Prod.ext hcal hop)
  · obtain ⟨hcal, hop, hact, htarg, hbase⟩ := hsame
    rw [← hcal, ← hop] at honF
    refine (review_on_file honF).2 .reviewPage ?_ ?_ (hcodec receipt)
    · rw [hact]
      exact reviewPage_of_applied happ
    · rw [htarg, hbase]

end State

/-! ## One review and its retry -/

/-- A whole number as serde writes it; a negative one is told apart by its brackets. -/
def numberJson : Int → Json ℕ
  | .ofNat n => .num n
  | .negSucc n => .arr [.num n]

/-- The fields of a receipt in their written order. -/
def receiptJson (receipt : PageReviewReceipt) : Json ℕ :=
  .obj [("page_id", .str receipt.pageId), ("human_reviewed", .bool receipt.humanReviewed),
    ("reviewed_page_version", numberJson receipt.reviewedPageVersion),
    ("reviewed_page_digest", .str receipt.reviewedPageDigest),
    ("protocol_version", .num receipt.protocolVersion.toNat),
    ("nonce_digest", .str receipt.nonceDigest),
    ("verified_at", numberJson receipt.verifiedAt.toInt), ("caller_id", .str receipt.callerId),
    ("operation_id", .str receipt.operationId)]

theorem numberJson_inj {m n : Int} (h : numberJson m = numberJson n) : m = n := by
  cases m <;> cases n <;> cases h <;> rfl

theorem receiptJson_inj {receipt other : PageReviewReceipt}
    (h : receiptJson receipt = receiptJson other) : receipt = other := by
  obtain ⟨page, human, version, digest, protocol, nonce, verified, caller, operation⟩ := receipt
  obtain ⟨page', human', version', digest', protocol', nonce', verified', caller',
    operation'⟩ := other
  simp only [receiptJson, Json.obj.injEq, List.cons.injEq, Prod.mk.injEq, true_and,
    Json.str.injEq, Json.bool.injEq, Json.num.injEq, and_true] at h
  obtain ⟨hpage, hhuman, hvers, hdig, hprot, hnonce, hverif, hcal, hoper⟩ := h
  rw [hpage, hhuman, numberJson_inj hvers, hdig, UInt32.toNat_inj.mp hprot, hnonce,
    Int64.toInt_inj.mp (numberJson_inj hverif), hcal, hoper]

theorem receiptText_injective :
    Function.Injective fun receipt => Json.stringify (receiptJson receipt) := by
  intro receipt other h
  exact receiptJson_inj (Json.stringify_injective h)

namespace Sample

open Support.Framing (component counted)
open State (Grounded Step marks_of_applied reaches_step)

def content : List UInt8 := "hello".toByteArray.data.toList

def contentHash : List UInt8 :=
  [44, 242, 77, 186, 95, 176, 163, 14, 38, 232, 59, 42, 197, 185, 226, 158, 27, 22, 30, 92, 31, 167,
    66, 94, 115, 4, 51, 98, 147, 139, 152, 36]

def contentDigest : Text := ⟨hexEncode contentHash, by decide +kernel⟩

def secret : List UInt8 := (List.range 32).map fun n => UInt8.ofNat (n + 1)

def newNonce (index : ℕ) : Nonce := ⟨List.replicate 15 7 ++ [UInt8.ofNat index], rfl⟩

def pageId : Text := ⟨"p", by decide⟩

def request : PresenceRequest where
  action := .reviewPage
  targetIds := Texts.single pageId
  baseDigest := contentDigest
  callerId := ⟨"wenlan-app", by decide⟩
  operationId := ⟨"op-1", by decide⟩

def requestBytes : List UInt8 :=
  component request.action.bytes ++ counted request.targetIds.bytes ++
    component request.baseDigest.bytes

def signed : Signed := mintSigned request (newNonce 0) 1000

def mac : List UInt8 :=
  [249, 19, 77, 230, 189, 141, 246, 162, 32, 154, 124, 2, 109, 55, 176, 94, 28, 180, 38, 215, 110,
    219, 61, 103, 247, 88, 157, 224, 145, 217, 18, 172]

/-- The real hashes and the real MAC of the inputs of this run. -/
noncomputable def library : Library where
  sha256 bytes :=
    if bytes = content then contentHash
    else if bytes = (newNonce 0).val then
      [2, 202, 244, 94, 64, 158, 151, 162, 91, 98, 16, 163, 78, 49, 196, 67, 176, 13, 195, 149, 128,
        161, 155, 172, 3, 152, 200, 98, 34, 86, 8, 16]
    else if bytes = requestBytes then
      [177, 28, 87, 134, 110, 94, 192, 76, 31, 131, 206, 38, 211, 231, 251, 21, 49, 133, 135, 101,
        34, 61, 251, 15, 111, 5, 86, 79, 198, 152, 84, 19]
    else []
  hmacSha256 key bytes := if key = secret ∧ bytes = signedBytes signed then mac else []
  toJson receipt := Json.stringify (receiptJson receipt)
  fromJson := Function.partialInv fun receipt => Json.stringify (receiptJson receipt)

def start : State where
  db := ⟨AList.insert "p" ⟨1, "hello"⟩ ∅, ∅, ∅, ∅⟩
  file := none
  clock := 1000
  minted := []

def submission : Submission where
  capability := {
    protocolVersion := 1
    action := "review_page"
    targetIds := request.targetIds
    baseDigest := request.baseDigest
    callerId := request.callerId
    operationId := request.operationId
    mintedAt := 1000
    expiresAt := 1060
    nonce := ⟨"07070707070707070707070707070700", by decide⟩
    mac := ⟨"f9134de6bd8df6a2209a7c026d37b05e1cb426d76edb3d67f7589de091d912ac", by decide⟩ }
  pageId := pageId
  rooted := true
  commits := true

def minted : State := start.mint newNonce request secret

noncomputable def marked : State := minted.submitted library submission

def receipt : PageReviewReceipt where
  pageId := "p"
  humanReviewed := true
  reviewedPageVersion := 1
  reviewedPageDigest := "2cf24dba5fb0a30e26e83b2ac5b9e29e1b161e5c1fa7425e73043362938b9824"
  protocolVersion := 1
  nonceDigest := "02caf45e409e97a25b6210a34e31c443b00dc39580a19bac0398c86222560810"
  verifiedAt := 1000
  callerId := "wenlan-app"
  operationId := "op-1"

theorem codec (receipt : PageReviewReceipt) :
    library.fromJson (library.toJson receipt) = some receipt :=
  Function.partialInv_left receiptText_injective receipt

theorem start_fresh : start.Fresh where
  minted := rfl
  receipts := rfl
  unreviewed := by
    intro page row h
    cases h

theorem applied : minted.outcome library submission = .ok (.applied receipt) := by
  decide +kernel

theorem unforged : minted.Unforged library submission := by
  intro secret action nonce hsecr hact hnonce _
  refine ⟨⟨Sample.secret, signed⟩, List.mem_singleton_self _, ?_, ?_⟩
  · have hfile : loadSecret minted.file = .ok Sample.secret := by decide +kernel
    rw [hfile] at hsecr
    exact Except.ok.inj hsecr
  · have hread : submission.capability.decodeNonce = some (newNonce 0).forSigning := by
      decide +kernel
    rw [hread] at hnonce
    cases hnonce
    obtain rfl : action = .reviewPage := by
      have hrevie : parseAction submission.capability.action = some .reviewPage := by decide
      rw [hrevie] at hact
      exact (Option.some.inj hact).symm
    decide +kernel

theorem reaches_minted : Reaches (Step library newNonce) start minted := by
  have hstep : Step library newNonce start (.mint request secret) minted := ⟨trivial, rfl⟩
  exact reaches_step hstep

theorem reaches_marked : Reaches (Step library newNonce) start marked := by
  have hstep : Step library newNonce minted (.submit submission) marked := ⟨unforged, rfl⟩
  exact reaches_minted.trans (reaches_step hstep)

theorem reviewed : marked.Reviewed "p" 1 contentDigest.val := by
  obtain ⟨page, hpage, -, -, -, -, htruth⟩ := (marks_of_applied applied).truth
  refine ⟨⟨true, some 1, some contentDigest.val, 1000⟩, ?_, rfl, rfl, rfl⟩
  have hstart : page = ⟨1, "hello"⟩ := (Option.some.inj hpage).symm
  change marked.db.truth = _ at htruth
  rw [htruth, hstart]
  exact AList.lookup_insert _

theorem presence_review_safety_minted :
    Grounded library newNonce start marked "p" 1 contentDigest.val ∧
      marked.outcome library submission = .ok (.replayed receipt) := by
  have hnonces : Set.InjOn newNonce { n | n < marked.minted.length } := by
    intro m hm n hn _
    have hone : marked.minted.length = 1 := rfl
    rw [Set.mem_ofPred_eq, hone] at hm hn
    omega
  obtain ⟨hgroun, honce, -⟩ :=
    State.presence_review_safety library newNonce codec start_fresh reaches_marked hnonces
  have hretry := honce minted submission receipt reaches_minted unforged applied
    (.refl marked) submission
  exact ⟨hgroun "p" 1 contentDigest.val reviewed, hretry.2 ⟨rfl, rfl, rfl, rfl, rfl⟩⟩

end Sample

end Wenlan.Presence
