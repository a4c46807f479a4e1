import Wenlan.Presence.Capabilities
import Wenlan.Support.KeyTable

/-!
# The review of a page

`db/presence_review.rs`: receipt lookup, verification, the page, and then nonce, mark and receipt in
one transaction.  Of `page_truth_state` only the human axis is kept.
-/

namespace Wenlan.Presence

open Support (KeyTable)

structure PageRow where
  version : Int
  content : String

/-- The human axis of `page_truth_state`. -/
structure TruthRow where
  humanReviewed : Bool
  reviewedPageVersion : Option Int
  reviewedPageDigest : Option String
  updatedAt : Int64

structure NonceRow where
  callerId : String
  operationId : String
  requestDigest : String
  consumedAt : Int64
  expiresAt : Int64

structure ReceiptKey where
  callerId : String
  operationId : String
  deriving DecidableEq

structure ReceiptRow where
  requestDigest : String
  responseJson : String
  createdAt : Int64

structure ReviewDb where
  pages : KeyTable String PageRow
  truth : KeyTable String TruthRow
  nonces : KeyTable String NonceRow
  receipts : KeyTable ReceiptKey ReceiptRow

inductive ReviewOutcome where
  | applied (receipt : PageReviewReceipt)
  | replayed (receipt : PageReviewReceipt)
  | refused (refusal : PresenceRefusal)
  deriving DecidableEq

def revisionContentDigest (library : Library) (content : String) : String :=
  hexEncode (library.sha256 content.toByteArray.data.toList)

/-- `now.max(0) as u64`. -/
def asU64 (now : Int64) : UInt64 := UInt64.ofNat now.toInt.toNat

/-- `answer_for`: once a row is on file the request is its retry or a conflict. -/
def answerFor (library : Library) (stored : ReceiptRow) (submittedDigest : Option String) :
    Except String ReviewOutcome :=
  if submittedDigest ≠ some stored.requestDigest then .ok (.refused .conflict)
  else
    match library.fromJson stored.responseJson with
    | none => .error "presence receipt is unreadable"
    | some receipt => .ok (.replayed receipt)

namespace ReviewDb

def storedReceipt (callerId operationId : Text) (db : ReviewDb) : Option ReceiptRow :=
  db.receipts.lookup ⟨callerId.val, operationId.val⟩

def mark (pageId : String) (version : Int) (digest : String) (now : Int64) (db : ReviewDb) :
    ReviewDb :=
  { db with truth := db.truth.insert pageId ⟨true, some version, some digest, now⟩ }

def applyReviewInTxn (library : Library) (verified : VerifiedPresence) (pageId : String)
    (version : Int) (digest : String) (now : Int64) (db : ReviewDb) :
    Except String (ReviewDb × ReviewOutcome) :=
  let receipt : PageReviewReceipt := {
    pageId := pageId
    humanReviewed := true
    reviewedPageVersion := version
    reviewedPageDigest := digest
    protocolVersion := verified.protocolVersion
    nonceDigest := verified.nonceDigest
    verifiedAt := now
    callerId := verified.callerId.val
    operationId := verified.operationId.val }
  if verified.nonceDigest ∈ db.nonces then .ok (db, .refused .replayed)
  else
    let db := { db with
      nonces := db.nonces.insert verified.nonceDigest {
        callerId := verified.callerId.val
        operationId := verified.operationId.val
        requestDigest := verified.requestDigest
        consumedAt := now
        expiresAt := verified.expiresAt.toInt64 } }
    let db := db.mark pageId version digest now
    match db.storedReceipt verified.callerId verified.operationId with
    | some stored =>
      -- The insert of the receipt fails on its key, and the one on file answers.
      (answerFor library stored (some verified.requestDigest)).map fun outcome => (db, outcome)
    | none =>
      let db := { db with
        receipts := db.receipts.insert ⟨verified.callerId.val, verified.operationId.val⟩
          ⟨verified.requestDigest, library.toJson receipt, now⟩ }
      let db := { db with
        nonces := KeyTable.deleteWhere (fun _ row => decide (row.expiresAt < now)) db.nonces }
      .ok (db, .applied receipt)

/-- `review_in_txn`, with the file that the presence root leads to. -/
def reviewInTxn (library : Library) (submitted : PresenceCapability) (pageId : Text)
    (file : Option SecretFile) (now : Int64) (db : ReviewDb) :
    Except String (ReviewDb × ReviewOutcome) :=
  match db.storedReceipt submitted.callerId submitted.operationId with
  | some stored =>
    let submittedDigest := (parseAction submitted.action).map fun action =>
      requestDigest library action submitted.targetIds submitted.baseDigest
    (answerFor library stored submittedDigest).map fun outcome => (db, outcome)
  | none =>
    match loadSecret file with
    | .error _ => .ok (db, .refused .unavailable)
    | .ok secret =>
      match verify library submitted secret (asU64 now) .reviewPage (Texts.single pageId) with
      | .error refusal => .ok (db, .refused refusal)
      | .ok verified =>
        match db.pages.lookup pageId.val with
        | none => .ok (db, .refused .invalid)
        | some page =>
          let liveDigest := revisionContentDigest library page.content
          if verified.baseDigest.val ≠ liveDigest then .ok (db, .refused .conflict)
          else db.applyReviewInTxn library verified pageId.val page.version liveDigest now

/-- `review_page_with_presence`: only an applied review is committed, the rest is rolled back. -/
def reviewPageWithPresence (library : Library) (submitted : PresenceCapability) (pageId : Text)
    (file : Option SecretFile) (now : Int64) (commits : Bool) (db : ReviewDb) :
    ReviewDb × Except String ReviewOutcome :=
  match db.reviewInTxn library submitted pageId file now with
  | .ok (next, .applied receipt) =>
    if commits then (next, .ok (.applied receipt)) else (db, .error "presence review commit")
  | .ok (_, outcome) => (db, .ok outcome)
  | .error error => (db, .error error)

end ReviewDb

/-! ## What a review does -/

section Review

variable {library : Library} {submitted : PresenceCapability} {pageId : Text}
  {file : Option SecretFile} {now : Int64} {commits : Bool} {db : ReviewDb}
  {receipt : PageReviewReceipt}

theorem answerFor_ne_applied {stored : ReceiptRow} {digest : Option String} :
    answerFor library stored digest ≠ .ok (.applied receipt) := by
  unfold answerFor
  split_ifs
  · intro h
    cases h
  · cases library.fromJson stored.responseJson with
    | none =>
      intro h
      cases h
    | some _ =>
      intro h
      cases h

/-- The database after a review that was applied. -/
structure Marks (library : Library) (submitted : PresenceCapability) (pageId : Text)
    (now : Int64) (receipt : PageReviewReceipt) (db db' : ReviewDb) : Prop where
  pages : db'.pages = db.pages
  truth : ∃ page, db.pages.lookup pageId.val = some page ∧
    submitted.baseDigest.val = revisionContentDigest library page.content ∧
    receipt.pageId = pageId.val ∧ receipt.reviewedPageVersion = page.version ∧
    receipt.reviewedPageDigest = submitted.baseDigest.val ∧
    db'.truth = db.truth.insert pageId.val
      ⟨true, some page.version, some submitted.baseDigest.val, now⟩
  fresh : db.storedReceipt submitted.callerId submitted.operationId = none
  receipts : db'.receipts = db.receipts.insert
    ⟨submitted.callerId.val, submitted.operationId.val⟩
    ⟨requestDigest library .reviewPage submitted.targetIds submitted.baseDigest,
      library.toJson receipt, now⟩

theorem map_answer_ne_applied {stored : ReceiptRow} {digest : Option String} {next : ReviewDb} :
    (answerFor library stored digest).map (fun outcome => (db, outcome)) ≠
      .ok (next, .applied receipt) := by
  cases hanswer : answerFor library stored digest with
  | error error =>
    intro h
    cases h
  | ok outcome =>
    intro h
    cases h
    exact answerFor_ne_applied hanswer

theorem applyReview_applied {verified : VerifiedPresence} {page digest : String} {version : Int}
    {next : ReviewDb} (h : db.applyReviewInTxn library verified page version digest now =
      .ok (next, .applied receipt)) :
    receipt.pageId = page ∧ receipt.reviewedPageVersion = version ∧
      receipt.reviewedPageDigest = digest ∧ next.pages = db.pages ∧
      next.truth = db.truth.insert page ⟨true, some version, some digest, now⟩ ∧
      next.receipts = db.receipts.insert ⟨verified.callerId.val, verified.operationId.val⟩
        ⟨verified.requestDigest, library.toJson receipt, now⟩ := by
  unfold ReviewDb.applyReviewInTxn at h
  dsimp only at h
  split_ifs at h
  · cases h
  · split at h
    · exact absurd h map_answer_ne_applied
    · cases h
      exact ⟨rfl, rfl, rfl, rfl, rfl, rfl⟩

theorem reviewInTxn_applied {next : ReviewDb}
    (h : db.reviewInTxn library submitted pageId file now = .ok (next, .applied receipt)) :
    (∃ secret verified, loadSecret file = .ok secret ∧
      verify library submitted secret (asU64 now) .reviewPage (Texts.single pageId) =
        .ok verified) ∧
      Marks library submitted pageId now receipt db next := by
  unfold ReviewDb.reviewInTxn at h
  cases hstor : db.storedReceipt submitted.callerId submitted.operationId with
  | some stored =>
    rw [hstor] at h
    exact absurd h map_answer_ne_applied
  | none =>
    rw [hstor] at h
    cases hsecret : loadSecret file with
    | error error =>
      rw [hsecret] at h
      cases h
    | ok secret =>
      rw [hsecret] at h
      dsimp only at h
      cases hver : verify library submitted secret (asU64 now) .reviewPage
          (Texts.single pageId) with
      | error refusal =>
        rw [hver] at h
        cases h
      | ok verified =>
        rw [hver] at h
        refine ⟨⟨secret, verified, rfl, hver⟩, ?_⟩
        obtain ⟨-, -, -, -, hbase, hcal, hoper, hreq⟩ := verify_eq_ok hver
        cases hpage : db.pages.lookup pageId.val with
        | none =>
          rw [hpage] at h
          cases h
        | some page =>
          rw [hpage] at h
          dsimp only at h
          rw [hbase] at h
          by_cases hlive : submitted.baseDigest.val = revisionContentDigest library page.content
          · rw [if_neg (not_not_intro hlive), ← hlive] at h
            obtain ⟨hid, hvers, hrev, hpages, htruth, hrecs⟩ :=
              applyReview_applied h
            rw [hcal, hoper, hreq] at hrecs
            exact ⟨hpages, ⟨page, hpage, hlive, hid, hvers, hrev, htruth⟩, hstor, hrecs⟩
          · rw [if_pos hlive] at h
            cases h

theorem review_applied
    (h : (db.reviewPageWithPresence library submitted pageId file now commits).2 =
      .ok (.applied receipt)) : db.reviewInTxn library submitted pageId file now =
      .ok ((db.reviewPageWithPresence library submitted pageId file now commits).1,
        .applied receipt) := by
  unfold ReviewDb.reviewPageWithPresence at h ⊢
  cases hresult : db.reviewInTxn library submitted pageId file now with
  | error error =>
    rw [hresult] at h
    cases h
  | ok result =>
    obtain ⟨next, outcome⟩ := result
    rw [hresult] at h
    cases outcome with
    | applied other =>
      cases commits with
      | false => cases h
      | true =>
        cases h
        rfl
    | replayed other => cases h
    | refused refusal => cases h

/-- A refusal, a replay or an error leaves the database as it was. -/
theorem review_not_applied
    (h : ∀ receipt, (db.reviewPageWithPresence library submitted pageId file now commits).2 ≠
      .ok (.applied receipt)) :
    (db.reviewPageWithPresence library submitted pageId file now commits).1 = db := by
  unfold ReviewDb.reviewPageWithPresence at h ⊢
  cases hresult : db.reviewInTxn library submitted pageId file now with
  | error error => rfl
  | ok result =>
    obtain ⟨next, outcome⟩ := result
    cases outcome with
    | applied receipt =>
      rw [hresult] at h
      cases commits with
      | false => rfl
      | true => exact absurd rfl (h receipt)
    | replayed receipt => rfl
    | refused refusal => rfl

/-- A receipt on file answers, whatever else became of the request. -/
theorem review_on_file {stored : ReceiptRow}
    (hstor : db.storedReceipt submitted.callerId submitted.operationId = some stored) :
    (∀ receipt, (db.reviewPageWithPresence library submitted pageId file now commits).2 ≠
      .ok (.applied receipt)) ∧
      ∀ action, parseAction submitted.action = some action →
        requestDigest library action submitted.targetIds submitted.baseDigest =
          stored.requestDigest →
        library.fromJson stored.responseJson = some receipt →
        (db.reviewPageWithPresence library submitted pageId file now commits).2 =
          .ok (.replayed receipt) := by
  unfold ReviewDb.reviewPageWithPresence ReviewDb.reviewInTxn
  rw [hstor]
  dsimp only
  constructor
  · intro other
    cases hanswer : answerFor library stored ((parseAction submitted.action).map fun action =>
        requestDigest library action submitted.targetIds submitted.baseDigest) with
    | error error =>
      intro h
      cases h
    | ok outcome =>
      cases outcome with
      | applied other => exact absurd hanswer answerFor_ne_applied
      | replayed other =>
        intro h
        cases h
      | refused refusal =>
        intro h
        cases h
  · intro action haction hdig hrec
    rw [haction, Option.map_some, hdig, answerFor, if_neg (not_not_intro rfl), hrec]
    rfl

end Review

end Wenlan.Presence
