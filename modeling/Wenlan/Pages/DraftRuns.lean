import Wenlan.Pages.Drafts

/-!
# Page drafts are exactly once

What a request that changes anything has changed, and what every later state still knows of
it.  Requests may be delivered any number of times and in any order; between them the
registered spaces and the other pages change, a space is renamed under the page, and a page
that is published is edited elsewhere.
-/

namespace Wenlan.Pages

open DraftRequest Except Option

open Claims (trimBlanks isWhitespace)

theorem trimBlanks_idem (text : List Char) : trimBlanks (trimBlanks text) = trimBlanks text := by
  have hhead : (trimBlanks text).dropWhile isWhitespace = trimBlanks text := by
    cases hb : trimBlanks text with
    | nil => rfl
    | cons b rest =>
      have hinit : trimBlanks text <+: text.dropWhile isWhitespace :=
        List.rdropWhile_prefix isWhitespace (text.dropWhile isWhitespace)
      rw [hb] at hinit
      obtain ⟨tail, htail⟩ := hinit
      have hnot : ¬ isWhitespace b := by
        have := List.head?_dropWhile_not isWhitespace text
        rw [← htail] at this
        simpa using this
      exact List.dropWhile_cons_of_neg hnot
  have hidem : ∀ l : List Char, (l.dropWhile isWhitespace).dropWhile isWhitespace =
      l.dropWhile isWhitespace := List.dropWhile_idempotent isWhitespace
  calc trimBlanks (trimBlanks text)
      = ((trimBlanks text).reverse.dropWhile isWhitespace).reverse := by
        rw [trimBlanks, hhead]
    _ = trimBlanks text := by
        rw [trimBlanks, List.reverse_reverse, hidem]

theorem trim_idem (text : String) : trim (trim text) = trim text := by
  rw [trim, trim, String.toList_ofList, trimBlanks_idem]

variable {scope : Option String × Option String}

variable {spaces : List String}

theorem normalizedScope_eq {validateSpace : Bool}
    {space workspace : Option String}
    (h : normalizedScope spaces validateSpace space workspace = .ok scope) :
    scope = (requestedSpace validateSpace space,
      requestedWorkspace validateSpace space workspace) := by
  unfold normalizedScope at h
  by_cases hvalidate : validateSpace
  · rw [if_pos hvalidate] at h
    obtain ⟨name, hname, h⟩ := bind_eq_ok h
    cases h
    have hsame : name = requestedSpace validateSpace space := by
      rw [requestedSpace, if_pos hvalidate] at hname ⊢
      unfold registeredPageDraftSpace at hname
      cases hreq : (space.map trim).filter fun space => space != "" with
      | none =>
        rw [hreq] at hname
        exact (ok.inj hname).symm
      | some asked =>
        obtain ⟨hasked, hne⟩ := filter_eq_some_iff.mp hreq
        obtain ⟨raw, -, htrim⟩ := map_eq_some_iff.mp hasked
        have hagain : trim asked = asked := by rw [← htrim, trim_idem]
        rw [hreq, map_some, hagain, filter_some, if_pos hne] at hname
        dsimp only at hname
        split at hname
        · exact (ok.inj hname).symm
        · simp at hname
    rw [requestedWorkspace, if_pos hvalidate, ← hsame]
  · rw [if_neg hvalidate] at h
    exact (ok.inj h).symm

theorem requestedScope_of_normalizedScope {request : UpdateDraft}
    {row : PageRow}
    (h : normalizedScope spaces request.validateSpace request.space request.workspace = .ok scope)
    (hrow : row.scope = pageScope scope) : row.space = requestedScope request := by
  rw [PageRow.space, hrow, normalizedScope_eq h, pageScope, requestedScope]
  cases hor : (requestedWorkspace request.validateSpace request.space request.workspace).or
      (requestedSpace request.validateSpace request.space) with
  | none => simp
  | some name => by_cases hname : name = unfiledSpaceId <;> simp [hname, filter_some]

/-! ## What a request changes -/

inductive DraftEffect (id : String) (s : DraftStore) : DraftRequest → DraftStore → Prop
  | created (request : CreateDraft) (row : PageRow) (ledger : LedgerRow)
      (hcheck : checkCreate id request = .ok ()) (hrow : s.row = none) (hledger : s.ledger = none)
      (hversion : row.version = 1) (hdraft : row.status = "draft")
      (hmatches : createRequestMatches (some ledger) request = true) :
      DraftEffect id s (.create request) { s with row := some row, ledger := some ledger }
  | updated (request : UpdateDraft) (row row' : PageRow)
      (hcheck : ensureMeaningfulDraftSnapshot request.title request.content = .ok ())
      (hrow : s.row = some row) (hdraft : row.status = "draft")
      (hexpected : row.version = request.expectedVersion)
      (hversion : row'.version = row.version + 1) (hdraft' : row'.status = "draft")
      (htitle : row'.title = request.title) (hcontent : row'.content = request.content)
      (hspace : row'.space = requestedScope request) :
      DraftEffect id s (.update request) { s with row := some row' }
  | deleted (expectedVersion : Int) (row : PageRow) (hrow : s.row = some row)
      (hdraft : row.status = "draft") (hexpected : row.version = expectedVersion) :
      DraftEffect id s (.delete expectedVersion)
        { s with row := none, ledger := some (tombstone s.ledger) }
  | published (expectedVersion : Int) (row row' : PageRow) (hrow : s.row = some row)
      (hdraft : row.status = "draft") (hexpected : row.version = expectedVersion)
      (hversion : row'.version = row.version + 1) (hactive : row'.status = "active")
      (hcontent : row'.content = row.content) :
      DraftEffect id s (.publish expectedVersion) { s with row := some row' }

theorem requiredPageDraft_ok {id : String} {s : DraftStore} {row : PageRow}
    (h : requiredPageDraft id s = .ok row) : s.row = some row := by
  unfold requiredPageDraft at h
  cases hrow : s.row with
  | none => simp [hrow] at h
  | some row' =>
    rw [hrow] at h
    rw [ok.inj h]

variable {id now : String} {s s' : DraftStore} {reply : DraftReply}

theorem createPageDraft_ok {request : CreateDraft}
    (h : createPageDraft id request now s = .ok (reply, s')) :
    s' = s ∨ DraftEffect id s (.create request) s' := by
  obtain ⟨_, hcheck, h⟩ := bind_eq_ok h
  cases hrow : s.row with
  | some existing =>
    rw [hrow] at h
    dsimp only at h
    split at h
    · exact Or.inl (Prod.mk.inj (ok.inj h)).2.symm
    · simp at h
  | none =>
    rw [hrow] at h
    obtain ⟨_, hledger, h⟩ := bind_eq_ok h
    obtain ⟨scope, hscope, h⟩ := bind_eq_ok h
    obtain ⟨-, rfl⟩ := Prod.mk.inj (ok.inj h)
    have hnone : s.ledger = none := by simpa using refuseIf_eq_ok hledger
    refine Or.inr (.created request _ _ hcheck hrow hnone rfl rfl ?_)
    rw [normalizedScope_eq hscope]
    simp [createRequestMatches]

theorem updatePageDraft_ok {request : UpdateDraft}
    (h : updatePageDraft id request now s = .ok (reply, s')) :
    s' = s ∨ DraftEffect id s (.update request) s' := by
  obtain ⟨_, hcheck, h⟩ := bind_eq_ok h
  obtain ⟨current, hcur, h⟩ := bind_eq_ok h
  obtain ⟨_, hdraft, h⟩ := bind_eq_ok h
  split at h
  · exact Or.inl (Prod.mk.inj (ok.inj h)).2.symm
  · split at h
    · exact Or.inl (Prod.mk.inj (ok.inj h)).2.symm
    · rename_i hversion
      obtain ⟨scope, hscope, h⟩ := bind_eq_ok h
      obtain ⟨-, rfl⟩ := Prod.mk.inj (ok.inj h)
      have hstat : current.status = "draft" := not_not.mp (refuseIf_eq_ok hdraft)
      exact Or.inr (.updated request current _ hcheck (requiredPageDraft_ok hcur) hstat
        (not_not.mp hversion) rfl hstat rfl rfl
        (requestedScope_of_normalizedScope hscope rfl))

theorem deletePageDraft_ok {expectedVersion : Int}
    (h : deletePageDraft id expectedVersion s = .ok (reply, s')) :
    s' = s ∨ DraftEffect id s (.delete expectedVersion) s' := by
  obtain ⟨current, hcur, h⟩ := bind_eq_ok h
  obtain ⟨_, hdraft, h⟩ := bind_eq_ok h
  split at h
  · exact Or.inl (Prod.mk.inj (ok.inj h)).2.symm
  · rename_i hversion
    obtain ⟨-, rfl⟩ := Prod.mk.inj (ok.inj h)
    exact Or.inr (.deleted expectedVersion current (requiredPageDraft_ok hcur)
      (not_not.mp (refuseIf_eq_ok hdraft)) (not_not.mp hversion))

theorem publishPageDraft_ok {toLowercase : String → String} {expectedVersion : Int}
    {embedding : Option String}
    (h : publishPageDraft toLowercase id expectedVersion embedding now s = .ok (reply, s')) :
    s' = s ∨ DraftEffect id s (.publish expectedVersion) s' := by
  obtain ⟨current, hcur, h⟩ := bind_eq_ok h
  split at h
  · exact Or.inl (Prod.mk.inj (ok.inj h)).2.symm
  · split at h
    · exact Or.inl (Prod.mk.inj (ok.inj h)).2.symm
    · rename_i hversion
      obtain ⟨_, hdraft, h⟩ := bind_eq_ok h
      obtain ⟨_, -, h⟩ := bind_eq_ok h
      obtain ⟨target, -, h⟩ := bind_eq_ok h
      cases target with
      | inl page => exact Or.inl (Prod.mk.inj (ok.inj h)).2.symm
      | inr title =>
        obtain ⟨-, rfl⟩ := Prod.mk.inj (ok.inj h)
        exact Or.inr (.published expectedVersion current _ (requiredPageDraft_ok hcur)
          (not_not.mp (refuseIf_eq_ok hdraft)) (not_not.mp hversion) rfl rfl rfl)

theorem exec_effect (toLowercase : String → String) (id : String) (embedding : Option String)
    (now : String) (s : DraftStore) (request : DraftRequest) :
    (request.exec toLowercase id embedding now s).2 = s ∨
      DraftEffect id s request (request.exec toLowercase id embedding now s).2 := by
  unfold exec
  cases hbody : request.body toLowercase id embedding now s with
  | error error => exact Or.inl rfl
  | ok outcome =>
    cases request with
    | create => exact createPageDraft_ok hbody
    | update => exact updatePageDraft_ok hbody
    | delete => exact deletePageDraft_ok hbody
    | publish => exact publishPageDraft_ok hbody

/-! ## What later states know -/

/-- What can happen to the store: a request with what its snapshot was embedded as, new
registered spaces and other pages, a space renamed under the page, or an edit of the page
once it is no draft. -/
inductive DraftEvent where
  | request (request : DraftRequest) (embedding : Option String) (now : String)
  | surroundings (spaces : List String) (others : List ActivePage)
  | rescope (scope : String)
  | edited (row : PageRow)

def DraftEvent.apply (toLowercase : String → String) (id : String) (s : DraftStore) :
    DraftEvent → DraftStore
  | .request sent embedding now => (sent.exec toLowercase id embedding now s).2
  | .surroundings spaces others => { s with spaces, others }
  | .rescope scope => { s with row := s.row.map fun row => { row with scope } }
  | .edited row =>
    match s.row with
    | some current =>
      if current.status ≠ "draft" ∧ row.status ≠ "draft" ∧ current.version < row.version then
        { s with row := some row }
      else s
    | none => s

def runDrafts (toLowercase : String → String) (id : String) (s : DraftStore)
    (events : List DraftEvent) : DraftStore :=
  events.foldl (DraftEvent.apply toLowercase id) s

/-- The page as it was, or a later version of it; a page that is no draft never is one again. -/
structure RowAfter (row row' : PageRow) : Prop where
  version : row.version ≤ row'.version
  texts : row.version = row'.version →
    row'.title = row.title ∧ row'.content = row.content ∧ row'.status = row.status
  left : row.status ≠ "draft" → row'.status ≠ "draft"

theorem RowAfter.refl (row : PageRow) : RowAfter row row :=
  ⟨le_rfl, fun _ => ⟨rfl, rfl, rfl⟩, id⟩

theorem RowAfter.trans {a b c : PageRow} (h : RowAfter a b) (h' : RowAfter b c) : RowAfter a c := by
  refine ⟨h.version.trans h'.version, ?_, fun hleft => h'.left (h.left hleft)⟩
  intro heq
  have hab : a.version = b.version := by
    have := h.version
    have := h'.version
    omega
  obtain ⟨ht, hc, hs⟩ := h.texts hab
  obtain ⟨ht', hc', hs'⟩ := h'.texts (hab.symm.trans heq)
  exact ⟨ht'.trans ht, hc'.trans hc, hs'.trans hs⟩

variable {row' : PageRow}

theorem RowAfter.newer {row : PageRow} (hversion : row.version < row'.version)
    (hleft : row.status ≠ "draft" → row'.status ≠ "draft") : RowAfter row row' :=
  ⟨hversion.le, fun heq => absurd heq hversion.ne, hleft⟩

/-- `t` may come after `s`: the ledger is never forgotten, and a page that is gone while its
ledger row is there stays gone. -/
structure StoreAfter (s t : DraftStore) : Prop where
  ledger : s.ledger.isSome → t.ledger.isSome
  gone : s.row = none → s.ledger.isSome → t.row = none
  row : ∀ row, s.row = some row → (t.row = none ∧ t.ledger.isSome) ∨
    ∃ row', t.row = some row' ∧ RowAfter row row' ∧ t.ledger = s.ledger

theorem StoreAfter.trans {a b c : DraftStore} (h : StoreAfter a b) (h' : StoreAfter b c) :
    StoreAfter a c := by
  refine ⟨fun hledger => h'.ledger (h.ledger hledger),
    fun hnone hledger => h'.gone (h.gone hnone hledger) (h.ledger hledger), ?_⟩
  intro row hrow
  rcases h.row row hrow with ⟨hgone, hledger⟩ | ⟨row', hrow', hafter, hsame⟩
  · exact Or.inl ⟨h'.gone hgone hledger, h'.ledger hledger⟩
  · rcases h'.row row' hrow' with hgone | ⟨row'', hrow'', hafter', hsame'⟩
    · exact Or.inl hgone
    · exact Or.inr ⟨row'', hrow'', hafter.trans hafter', hsame'.trans hsame⟩

theorem StoreAfter.of_row {s t : DraftStore} (hledger : t.ledger = s.ledger)
    (hnone : s.row = none → t.row = none)
    (hrow : ∀ row, s.row = some row → ∃ row', t.row = some row' ∧ RowAfter row row') :
    StoreAfter s t := by
  refine ⟨fun h => by rw [hledger]; exact h, fun h _ => hnone h, ?_⟩
  intro row h
  obtain ⟨row', hrow', hafter⟩ := hrow row h
  exact Or.inr ⟨row', hrow', hafter, hledger⟩

theorem StoreAfter.refl (s : DraftStore) : StoreAfter s s :=
  .of_row rfl id fun row h => ⟨row, h, .refl row⟩

theorem DraftEffect.storeAfter {request : DraftRequest} (h : DraftEffect id s request s') :
    StoreAfter s s' := by
  cases h with
  | created request row ledger hcheck hrow hledger hversion hdraft hmatches =>
    refine ⟨fun _ => rfl, fun _ hsome => ?_, fun row' hrow' => ?_⟩
    · rw [hledger] at hsome
      simp at hsome
    · rw [hrow] at hrow'
      simp at hrow'
  | updated request row row' hcheck hrow hdraft hexpected hversion hdraft' =>
    refine .of_row rfl (fun hnone => by rw [hrow] at hnone; simp at hnone) ?_
    intro other hother
    obtain rfl := mem_unique hrow hother
    exact ⟨row', rfl, .newer (by omega) (absurd hdraft)⟩
  | deleted expectedVersion row hrow hdraft hexpected =>
    exact ⟨fun _ => rfl, fun _ _ => rfl, fun _ _ => Or.inl ⟨rfl, rfl⟩⟩
  | published expectedVersion row row' hrow hdraft hexpected hversion hactive hcontent =>
    refine .of_row rfl (fun hnone => by rw [hrow] at hnone; simp at hnone) ?_
    intro other hother
    obtain rfl := mem_unique hrow hother
    exact ⟨row', rfl, .newer (by omega) (absurd hdraft)⟩

theorem apply_after (toLowercase : String → String) (id : String) (s : DraftStore)
    (event : DraftEvent) : StoreAfter s (event.apply toLowercase id s) := by
  cases event with
  | request request embedding now =>
    rcases exec_effect toLowercase id embedding now s request with hsame | heffect
    · rw [DraftEvent.apply, hsame]
      exact .refl s
    · exact heffect.storeAfter
  | surroundings spaces others =>
    exact .of_row rfl (fun h => h) fun row h => ⟨row, h, .refl row⟩
  | rescope scope =>
    refine .of_row rfl (fun h => by rw [DraftEvent.apply, h]; rfl) fun row h => ?_
    refine ⟨{ row with scope }, by rw [DraftEvent.apply, h]; rfl, ?_⟩
    exact ⟨le_rfl, fun _ => ⟨rfl, rfl, rfl⟩, fun hleft => hleft⟩
  | edited row =>
    rw [DraftEvent.apply]
    cases hrow : s.row with
    | none =>
      exact .refl s
    | some current =>
      dsimp only
      split
      · rename_i hedit
        refine .of_row rfl (fun h => by rw [hrow] at h; simp at h) fun other hother => ?_
        obtain rfl := mem_unique hrow hother
        exact ⟨row, rfl, .newer hedit.2.2 fun _ => hedit.2.1⟩
      · exact .refl s

theorem run_after (toLowercase : String → String) (id : String) (events : List DraftEvent) :
    ∀ s : DraftStore, StoreAfter s (runDrafts toLowercase id s events) := by
  induction events with
  | nil => exact .refl
  | cons event rest ih =>
    intro s
    exact (apply_after toLowercase id s event).trans (ih _)

/-! ## Deliveries -/

variable {toLowercase : String → String} {embedding : Option String} {t : DraftStore}

theorem exec_of_body {request : DraftRequest}
    (h : request.body toLowercase id embedding now s = .ok (reply, s')) :
    request.exec toLowercase id embedding now s = (.ok reply, s') := by
  rw [exec, h]

def DraftRequest.expectedVersion : DraftRequest → Option Int
  | .create _ => none
  | .update request => some request.expectedVersion
  | .delete expectedVersion => some expectedVersion
  | .publish expectedVersion => some expectedVersion

theorem DraftEffect.expected {request : DraftRequest} {expectedVersion : Int}
    (h : DraftEffect id s request s') (hreq : request.expectedVersion = some expectedVersion) :
    ∃ row, s.row = some row ∧ row.version = expectedVersion := by
  cases h with
  | created => simp [DraftRequest.expectedVersion] at hreq
  | updated request row row' hcheck hrow hdraft hexpected =>
    exact ⟨row, hrow, hexpected.trans (some.inj hreq)⟩
  | deleted version row hrow hdraft hexpected =>
    exact ⟨row, hrow, hexpected.trans (some.inj hreq)⟩
  | published version row row' hrow hdraft hexpected =>
    exact ⟨row, hrow, hexpected.trans (some.inj hreq)⟩

theorem DraftEffect.unused {request : CreateDraft}
    (h : DraftEffect id s (.create request) s') : s.ledger = none := by
  cases h with
  | created _ row ledger hcheck hrow hledger => exact hledger

theorem DraftEffect.removed {expectedVersion : Int}
    (h : DraftEffect id s (.delete expectedVersion) s') : s'.row = none ∧ s'.ledger.isSome := by
  cases h with
  | deleted _ row => exact ⟨rfl, rfl⟩

theorem DraftEffect.counted {request : DraftRequest} (h : DraftEffect id s request s') :
    (s.row = none ∧ ∃ row', s'.row = some row' ∧ row'.version = 1) ∨
      (∃ row row', s.row = some row ∧ s'.row = some row' ∧ row'.version = row.version + 1) ∨
      (s'.row = none ∧ ∃ expectedVersion, request = .delete expectedVersion) := by
  cases h with
  | created _ row ledger hcheck hrow hledger hversion => exact Or.inl ⟨hrow, row, rfl, hversion⟩
  | updated _ row row' hcheck hrow hdraft hexpected hversion =>
    exact Or.inr (Or.inl ⟨row, row', hrow, rfl, hversion⟩)
  | deleted expectedVersion row => exact Or.inr (Or.inr ⟨rfl, expectedVersion, rfl⟩)
  | published _ row row' hrow hdraft hexpected hversion =>
    exact Or.inr (Or.inl ⟨row, row', hrow, rfl, hversion⟩)

theorem DraftEffect.past {request : DraftRequest} {expectedVersion : Int}
    (h : DraftEffect id s request s') (hreq : request.expectedVersion = some expectedVersion)
    (hafter : StoreAfter s' t) : ∀ row, t.row = some row → row.version ≠ expectedVersion := by
  intro row hrow
  have hnewer : ∀ row', s'.row = some row' → row'.version = expectedVersion + 1 →
      row.version ≠ expectedVersion := by
    intro row' hrow' hversion
    rcases hafter.row row' hrow' with ⟨hgone, -⟩ | ⟨later, hlater, hrowaf, -⟩
    · rw [hgone] at hrow
      simp at hrow
    · obtain rfl := mem_unique hlater hrow
      have := hrowaf.version
      omega
  cases h with
  | created => simp [DraftRequest.expectedVersion] at hreq
  | updated request before row' hcheck hbefore hdraft hexpected hversion =>
    have hexp : request.expectedVersion = expectedVersion := some.inj hreq
    exact hnewer row' rfl (by omega)
  | deleted version before hbefore hdraft hexpected =>
    rw [hafter.gone rfl rfl] at hrow
    simp at hrow
  | published version before row' hbefore hdraft hexpected hversion =>
    have hexp : version = expectedVersion := some.inj hreq
    exact hnewer row' rfl (by omega)

theorem DraftEffect.once {request : DraftRequest} (h : DraftEffect id s request s')
    (hafter : StoreAfter s' t) : (request.exec toLowercase id embedding now t).2 = t := by
  rcases exec_effect toLowercase id embedding now t request with hsame | hagain
  · exact hsame
  · cases hexpected : request.expectedVersion with
    | some expectedVersion =>
      obtain ⟨row, hrow, hversion⟩ := hagain.expected hexpected
      exact absurd hversion (h.past hexpected hafter row hrow)
    | none =>
      cases h with
      | created request row ledger =>
        have hsome := hafter.ledger rfl
        rw [hagain.unused] at hsome
        simp at hsome
      | updated => simp [expectedVersion] at hexpected
      | deleted => simp [expectedVersion] at hexpected
      | published => simp [expectedVersion] at hexpected

def createReplay (id : String) (t : DraftStore) : Except WenlanError DraftReply :=
  match t.row with
  | some row =>
    if row.status = "draft" then .ok (.created row) else .error (.pageDraftIdConflict id)
  | none => .error (.pageDraftIdConflict id)

theorem DraftEffect.replay {request : CreateDraft} (h : DraftEffect id s (.create request) s')
    (hafter : StoreAfter s' t) :
    ((create request).exec toLowercase id embedding now t).1 = createReplay id t := by
  cases h with
  | created _ row ledger hcheck hrow hledger hversion hdraft hmatches =>
    have hbody : (create request).body toLowercase id embedding now t =
        createPageDraft id request now t := rfl
    rw [exec, hbody, createPageDraft, hcheck, createReplay]
    rcases hafter.row row rfl with ⟨hgone, hsome⟩ | ⟨row', hrow', -, hsame⟩
    · simp [hgone, hsome, refuseIf, bind, Except.bind]
    · have hledger' : t.ledger = some ledger := hsame
      by_cases hstat : row'.status = "draft"
      · simp [hrow', hledger', hmatches, hstat, bind, Except.bind]
      · simp [hrow', hstat, bind, Except.bind]

theorem checkedSucc_eq {n m : Int} (hm : m = n + 1) (hlt : m < 2 ^ 63) :
    checkedSucc n = some m := by
  rw [checkedSucc, if_pos (by omega), hm]

theorem DraftEffect.retry_update {request : UpdateDraft}
    (h : DraftEffect id s (.update request) s') (hrow' : s'.row = some row')
    (hvers : row'.version < 2 ^ 63) (ht : t.row = s'.row) :
    (update request).exec toLowercase id embedding now t = (.ok (.updated row'), t) := by
  cases h with
  | updated _ row after hcheck hrow hdraft hexpected hversion hdraft' htitle hcontent hspace =>
    obtain rfl := some.inj hrow'
    apply exec_of_body
    have hsucc : checkedSucc request.expectedVersion = some after.version :=
      checkedSucc_eq (by omega) hvers
    have hrequi : requiredPageDraft id t = .ok after := by rw [requiredPageDraft, ht]
    have hbody : (update request).body toLowercase id embedding now t =
        updatePageDraft id request now t := rfl
    rw [hbody, updatePageDraft, hcheck]
    simp [hrequi, hdraft', hsucc, htitle, hcontent, hspace, refuseIf, bind, Except.bind]

theorem DraftEffect.retry_publish {expectedVersion : Int}
    (h : DraftEffect id s (.publish expectedVersion) s') (hrow' : s'.row = some row')
    (hvers : row'.version < 2 ^ 63) (ht : t.row = s'.row) :
    (publish expectedVersion).exec toLowercase id embedding now t =
      (.ok (.published row'), t) := by
  cases h with
  | published _ row after hrow hdraft hexpected hversion hactive hcontent =>
    obtain rfl := some.inj hrow'
    apply exec_of_body
    have hsucc : checkedSucc expectedVersion = some after.version :=
      checkedSucc_eq (by omega) hvers
    have hrequi : requiredPageDraft id t = .ok after := by rw [requiredPageDraft, ht]
    have hbody : (publish expectedVersion).body toLowercase id embedding now t =
        publishPageDraft toLowercase id expectedVersion embedding now t := rfl
    rw [hbody, publishPageDraft]
    simp [hrequi, hactive, hsucc, bind, Except.bind]

/-- What holds of the draft id in `s`, a request delivered there, and any later run. -/
structure ExactlyOnce (toLowercase : String → String) (id : String) (s : DraftStore) : Prop where
  /-- A request that changed something changes nothing when it is delivered again. -/
  redelivered : ∀ (request : DraftRequest) embedding now later embedding' now',
    (request.exec toLowercase id embedding now s).2 ≠ s →
    let t := runDrafts toLowercase id (request.exec toLowercase id embedding now s).2 later
    (request.exec toLowercase id embedding' now' t).2 = t
  /-- A draft that is deleted stays deleted. -/
  deleted : ∀ expectedVersion embedding now later,
    let request := DraftRequest.delete expectedVersion
    (request.exec toLowercase id embedding now s).2 ≠ s →
    (runDrafts toLowercase id (request.exec toLowercase id embedding now s).2 later).row = none
  /-- The create that made the draft answers with it for as long as it is a draft. -/
  replayed : ∀ (create : CreateDraft) embedding now later embedding' now',
    let request := DraftRequest.create create
    (request.exec toLowercase id embedding now s).2 ≠ s →
    let t := runDrafts toLowercase id (request.exec toLowercase id embedding now s).2 later
    (request.exec toLowercase id embedding' now' t).1 = createReplay id t
  /-- An update or a publish that is delivered again at once gets its answer again. -/
  retried : ∀ (request : DraftRequest) embedding now row' t embedding' now',
    (request.exec toLowercase id embedding now s).2 ≠ s →
    (request.exec toLowercase id embedding now s).2.row = some row' → row'.version < 2 ^ 63 →
    t.row = some row' →
    (∀ update, request = .update update →
      (request.exec toLowercase id embedding' now' t).1 = .ok (.updated row')) ∧
    ∀ expectedVersion, request = .publish expectedVersion →
      (request.exec toLowercase id embedding' now' t).1 = .ok (.published row')
  /-- Whatever changes the page adds one to its version, but for its first row and its end. -/
  counted : ∀ (request : DraftRequest) embedding now,
    let s' := (request.exec toLowercase id embedding now s).2
    s' ≠ s → (s.row = none ∧ ∃ row', s'.row = some row' ∧ row'.version = 1) ∨
      (∃ row row', s.row = some row ∧ s'.row = some row' ∧ row'.version = row.version + 1) ∨
      (s'.row = none ∧ ∃ expectedVersion, request = .delete expectedVersion)
  /-- Along a run the version does not go down, and texts and status only change with it. -/
  ordered : ∀ later row row', s.row = some row →
    (runDrafts toLowercase id s later).row = some row' → RowAfter row row'
  /-- A request for another version than the page's changes nothing. -/
  stale : ∀ (request : DraftRequest) embedding now expectedVersion,
    request.expectedVersion = some expectedVersion →
    (∀ row, s.row = some row → row.version ≠ expectedVersion) →
    (request.exec toLowercase id embedding now s).2 = s

end Wenlan.Pages
