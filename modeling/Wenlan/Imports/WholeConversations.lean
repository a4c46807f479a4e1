import Wenlan.Imports.BulkIngest

/-!
# Conversations are stored whole

Each import adds the rows of a prefix of its new conversations, whatever stops it.  A batch that
names no new conversation twice keeps every conversation whole and once.
-/

namespace Wenlan.Imports

open Support.Transition ParsedConversation List

structure StoredMessage where
  chunkIndex : ℕ
  content : String
  title : String
  deriving DecidableEq

variable {conv : ParsedConversation}

namespace ParsedConversation

def rows (conv : ParsedConversation) : List StoredMessage :=
  conv.messages.mapIdx fun ordinal message => ⟨ordinal, message.content, conv.title.getD ""⟩

theorem rows_eq_nil : conv.rows = [] ↔ conv.messages = [] := by
  exact mapIdx_eq_nil_iff

end ParsedConversation

def RawEntry.shown (entry : RawEntry) : String × StoredMessage :=
  (entry.sourceId, ⟨entry.chunkIndex, entry.content, entry.title.getD ""⟩)

theorem shown_entries (conv : ParsedConversation) :
    conv.entries.map RawEntry.shown = conv.rows.map fun row => (conv.sourceId, row) := by
  unfold entries rows
  apply ext_getElem
  · simp
  · intro i hleft hright
    simp [RawEntry.shown]

namespace Db

variable {Vector : Type} {db db' : Db Vector}

/-- The table as far as conversations go, in the order of insertion. -/
def stored (db : Db Vector) : List (String × StoredMessage) :=
  db.memories.map fun row => (row.sourceId, ⟨row.chunkIndex, row.content, row.title⟩)

def rowsOf (db : Db Vector) (sourceId : String) : List StoredMessage :=
  (db.stored.filter fun row => row.1 = sourceId).map (·.2)

theorem rowsOf_eq_nil {sourceId : String} :
    db.rowsOf sourceId = [] ↔ ∀ row ∈ db.memories, row.sourceId ≠ sourceId := by
  unfold rowsOf stored
  simp

theorem insertEntry_stored {run : SliceRun Vector} {drawn : ℕ} {entry : RawEntry}
    {embedding : Vector} (h : db.insertEntry run drawn entry embedding = some db') :
    db'.stored = db.stored ++ [entry.shown] := by
  unfold insertEntry at h
  dsimp only at h
  split_ifs at h
  all_goals
    cases h
    unfold stored
    rw [map_append]
    rfl

theorem insertEntries_stored {run : SliceRun Vector} {pairs : List (RawEntry × Vector)}
    {drawn : ℕ} (h : insertEntries run drawn pairs db = some db') :
    db'.stored = db.stored ++ pairs.map fun pair => pair.1.shown := by
  induction pairs generalizing drawn db with
  | nil =>
    cases h
    rw [map_nil, append_nil]
  | cons pair rest ih =>
    rw [insertEntries] at h
    obtain ⟨mid, hone, hrest⟩ := Option.bind_eq_some_iff.mp h
    rw [ih hrest, insertEntry_stored hone, append_assoc, map_cons]
    rfl

theorem storeSlice_cases (run : SliceRun Vector) (entries : List RawEntry) (db : Db Vector) :
    (∃ after stop, db.storeRawImportMemoriesBatch run entries = (after, .error stop) ∧
      (after.stored = db.stored ∨ after.stored = db.stored ++ entries.map RawEntry.shown)) ∨
    ∃ after, db.storeRawImportMemoriesBatch run entries = (after, .ok entries.length) ∧
      after.stored = db.stored ++ entries.map RawEntry.shown := by
  unfold storeRawImportMemoriesBatch
  cases hembeddings : run.embeddings with
  | error message => exact .inl ⟨_, _, rfl, .inl rfl⟩
  | ok embeddings =>
    dsimp only
    split_ifs with hlen
    · exact .inl ⟨_, _, rfl, .inl rfl⟩
    · cases hinserted : insertEntries run 0 (entries.zip embeddings) db with
      | none => exact .inl ⟨_, _, rfl, .inl rfl⟩
      | some stored =>
        have hstored : stored.stored = db.stored ++ entries.map RawEntry.shown := by
          have hfst : (entries.zip embeddings).map Prod.fst = entries :=
            map_fst_zip (by omega)
          rw [insertEntries_stored hinserted]
          nth_rewrite 2 [← hfst]
          rw [map_map]
          rfl
        cases hfate : run.fate with
        | commits => exact .inr ⟨_, rfl, hstored⟩
        | refused message => exact .inl ⟨_, _, rfl, .inl rfl⟩
        | crashed durable =>
          cases durable with
          | false => exact .inl ⟨_, _, rfl, .inl rfl⟩
          | true => exact .inl ⟨_, _, rfl, .inr hstored⟩

def added (convs : List ParsedConversation) : List (String × StoredMessage) :=
  (convs.flatMap (·.entries)).map RawEntry.shown

theorem added_append (convs convs' : List ParsedConversation) :
    added (convs ++ convs') = added convs ++ added convs' := by
  unfold added
  rw [flatMap_append, map_append]

structure StoresPrefix (convs : List ParsedConversation) (stored : ℕ) (db : Db Vector)
    (result : Db Vector × Except ImportStop ℕ) (done : List ParsedConversation) : Prop where
  isPrefix : done <+: convs
  stored_eq : result.1.stored = db.stored ++ added done
  of_ok : ∀ count, result.2 = .ok count → done = convs ∧ count = stored + (added done).length

theorem importSlices_stores (flushEntries : ℕ) (runs : ℕ → SliceRun Vector)
    (convs waiting : List ParsedConversation) (slice stored : ℕ) (db : Db Vector) :
    ∃ done, StoresPrefix (convs ++ waiting) stored db
      (db.importSlices flushEntries runs waiting slice (convs.flatMap (·.entries)) stored)
      done := by
  induction waiting generalizing convs slice stored db with
  | nil =>
    rw [importSlices, append_nil]
    split_ifs with hnone
    · refine ⟨convs, prefix_refl _, ?_, fun count h => ?_⟩
      · rw [added, hnone, map_nil, append_nil]
      · cases h
        rw [added, hnone]
        exact ⟨rfl, rfl⟩
    · obtain ⟨after, stop, hslice, hstored | hstored⟩ | ⟨after, hslice, hstored⟩ :=
        storeSlice_cases (runs slice) (convs.flatMap (·.entries)) db
      · rw [hslice]
        exact ⟨[], nil_prefix, hstored.trans (append_nil _).symm,
          fun count h => by cases h⟩
      · rw [hslice]
        exact ⟨convs, prefix_refl _, hstored, fun count h => by cases h⟩
      · rw [hslice]
        refine ⟨convs, prefix_refl _, hstored, fun total h => ?_⟩
        cases h
        rw [added, length_map]
        exact ⟨rfl, rfl⟩
  | cons conv rest ih =>
    rw [importSlices]
    split_ifs with hfull
    · obtain ⟨after, stop, hslice, hstored | hstored⟩ | ⟨after, hslice, hstored⟩ :=
        storeSlice_cases (runs slice) (convs.flatMap (·.entries)) db
      · rw [hslice]
        exact ⟨[], nil_prefix, hstored.trans (append_nil _).symm,
          fun count h => by cases h⟩
      · rw [hslice]
        exact ⟨convs, prefix_append _ _, hstored, fun count h => by cases h⟩
      · obtain ⟨done, hinit, hdone, hof⟩ :=
          ih [conv] (slice + 1) (stored + (convs.flatMap (·.entries)).length) after
        rw [flatMap_singleton] at hdone hof
        rw [hslice]
        refine ⟨convs ++ done, (prefix_append_right_inj convs).mpr hinit, ?_, ?_⟩
        · rw [hdone, hstored, added_append, append_assoc]
          rfl
        · intro total htotal
          obtain ⟨rfl, hsum⟩ := hof total htotal
          have hconvs : (added convs).length = (convs.flatMap (·.entries)).length := by
            rw [added, length_map]
          rw [hsum, added_append convs, length_append, hconvs, Nat.add_assoc]
          exact ⟨rfl, rfl⟩
    · obtain ⟨done, hinit, hdone, hof⟩ :=
        ih (convs ++ [conv]) slice stored db
      rw [flatMap_append, flatMap_singleton] at hdone hof
      rw [append_assoc] at hinit hof
      exact ⟨done, hinit, hdone, hof⟩

theorem mem_existingInChunks {turns : ℕ} {candidates : List String} {sourceId : String}
    (hturns : candidates.length ≤ turns) : sourceId ∈ db.existingInChunks turns candidates ↔
      sourceId ∈ candidates ∧ db.rowsOf sourceId ≠ [] := by
  induction turns generalizing candidates with
  | zero =>
    have hnil : candidates = [] := length_eq_zero_iff.mp (by omega)
    subst hnil
    simp [existingInChunks]
  | succ turns ih =>
    rw [existingInChunks]
    split_ifs with hnil
    · subst hnil
      simp
    · have hlen : (candidates.drop 500).length ≤ turns := by
        have hpos := length_pos_of_ne_nil hnil
        rw [length_drop]
        omega
      have hfound : db.rowsOf sourceId ≠ [] ↔ sourceId ∈ db.memories.map (·.sourceId) := by
        rw [Ne, rowsOf_eq_nil]
        simp
      have hsplit : sourceId ∈ candidates ↔
          sourceId ∈ candidates.take 500 ∨ sourceId ∈ candidates.drop 500 := by
        rw [← mem_append, take_append_drop]
      rw [mem_append, ih hlen, mem_dedup, mem_filter, contains_iff_mem,
        hfound, hsplit, or_and_right]
      exact or_congr_left and_comm

def newConversations (batch : List ParsedConversation) (db : Db Vector) : List ParsedConversation :=
  batch.filter fun conv => db.rowsOf conv.sourceId = []

theorem newConversations_eq (batch : List ParsedConversation) (db : Db Vector) :
    (batch.filter fun conv =>
      !(db.checkExistingImportSourceIds (batch.map (·.sourceId))).contains conv.sourceId) =
      db.newConversations batch := by
  refine filter_congr fun conv hmem => ?_
  have hexist : conv.sourceId ∈ db.checkExistingImportSourceIds (batch.map (·.sourceId)) ↔
      db.rowsOf conv.sourceId ≠ [] :=
    (mem_existingInChunks (Nat.le_refl _)).trans
      (and_iff_right (mem_map_of_mem hmem))
  rw [← contains_iff_mem] at hexist
  by_cases hrows : db.rowsOf conv.sourceId = []
  · rw [decide_eq_true hrows, Bool.not_eq_true', Bool.eq_false_iff]
    exact fun hfound => hexist.mp hfound hrows
  · rw [decide_eq_false hrows, hexist.mpr hrows, Bool.not_true]

theorem bulkImport_stores (imported : Import Vector) (db : Db Vector) :
    ∃ done, done <+: db.newConversations imported.batch ∧
      (db.bulkImport imported).1.stored = db.stored ++ added done ∧
      ∀ result, (db.bulkImport imported).2 = .ok result →
        done = db.newConversations imported.batch ∧
        result.conversationsIngested = done.length ∧
        result.conversationsSkippedExisting = imported.batch.length - done.length ∧
        result.memoriesStored = (added done).length := by
  unfold bulkImport
  split_ifs with hempty
  · refine ⟨[], nil_prefix, (append_nil _).symm, fun result h => ?_⟩
    cases h
    rw [hempty]
    exact ⟨rfl, rfl, rfl, rfl⟩
  · cases hfails : imported.lookupFails with
    | some message =>
      exact ⟨[], nil_prefix, (append_nil _).symm, fun result h => by cases h⟩
    | none =>
      dsimp only
      rw [newConversations_eq]
      obtain ⟨done, hinit, hstored, hof⟩ := importSlices_stores imported.flushEntries
        imported.runs [] (db.newConversations imported.batch) 0 0 db
      rw [nil_append] at hinit hof
      rw [flatMap_nil] at hstored hof
      obtain ⟨after, outcome, hafter⟩ : ∃ after outcome,
          db.importSlices imported.flushEntries imported.runs
            (db.newConversations imported.batch) 0 [] 0 = (after, outcome) := ⟨_, _, rfl⟩
      rw [hafter] at hstored hof ⊢
      refine ⟨done, hinit, ?_, ?_⟩
      · cases outcome with
        | error stop => exact hstored
        | ok count => exact hstored
      · intro result h
        cases outcome with
        | error stop => cases h
        | ok count =>
          cases h
          obtain ⟨rfl, hcount⟩ := hof count rfl
          exact ⟨rfl, rfl, rfl, hcount.trans (Nat.zero_add _)⟩

/-! ## Rows of one conversation -/

def addedOf (convs : List ParsedConversation) (sourceId : String) : List StoredMessage :=
  (convs.filter fun conv => conv.sourceId = sourceId).flatMap (·.rows)

theorem filter_added (convs : List ParsedConversation) (sourceId : String) :
    ((added convs).filter fun row => row.1 = sourceId).map (·.2) = addedOf convs sourceId := by
  unfold addedOf
  induction convs with
  | nil => rfl
  | cons conv rest ih =>
    have hcons : added (conv :: rest) =
        (conv.rows.map fun row => (conv.sourceId, row)) ++ added rest := by
      unfold added
      rw [flatMap_cons, map_append, shown_entries]
    rw [hcons, filter_append, map_append, ih, filter_map, map_map]
    by_cases hsame : conv.sourceId = sourceId
    · rw [filter_cons, if_pos (decide_eq_true hsame), flatMap_cons]
      congr 1
      simp [Function.comp_def, hsame]
    · rw [filter_cons, if_neg (by simp [hsame])]
      simp [Function.comp_def, hsame]

variable {convs : List ParsedConversation}

theorem addedOf_eq_nil {sourceId : String}
    (h : ∀ conv ∈ convs, conv.sourceId = sourceId → conv.messages = []) :
    addedOf convs sourceId = [] := by
  unfold addedOf
  rw [flatMap_eq_nil_iff]
  intro conv hmem
  obtain ⟨hconv, hsame⟩ := mem_filter.mp hmem
  exact rows_eq_nil.mpr (h conv hconv (of_decide_eq_true hsame))

def Distinct (convs : List ParsedConversation) : Prop :=
  ((convs.filter fun conv => conv.messages ≠ []).map (·.sourceId)).Nodup

theorem addedOf_once
    (hdist : Distinct convs) (hmem : conv ∈ convs) (hmsgs : conv.messages ≠ []) :
    addedOf convs conv.sourceId = conv.rows := by
  induction convs with
  | nil => cases hmem
  | cons first rest ih =>
    unfold Distinct at hdist ih
    by_cases hfirst : first.messages = []
    · have hne : conv ≠ first := fun heq => hmsgs (heq ▸ hfirst)
      rw [filter_cons_of_neg (by simp [hfirst])] at hdist
      have htail := ih hdist ((mem_cons.mp hmem).resolve_left hne)
      rw [← htail]
      unfold addedOf
      rw [filter_cons]
      split_ifs
      · rw [flatMap_cons, rows_eq_nil.mpr hfirst, nil_append]
      · rfl
    · rw [filter_cons_of_pos (by simp [hfirst]), map_cons, nodup_cons]
        at hdist
      obtain ⟨hnew, hrest⟩ := hdist
      have hapart : ∀ other ∈ rest, other.messages ≠ [] → other.sourceId ≠ first.sourceId := by
        intro other hother hnonempty heq
        refine hnew (heq ▸ mem_map_of_mem (mem_filter.mpr ⟨hother, ?_⟩))
        exact decide_eq_true hnonempty
      rcases mem_cons.mp hmem with rfl | htail
      · have hnil : addedOf rest conv.sourceId = [] := by
          refine addedOf_eq_nil fun other hother hsame => ?_
          by_contra hnonempty
          exact hapart other hother hnonempty hsame
        unfold addedOf at hnil ⊢
        rw [filter_cons, if_pos (decide_eq_true rfl), flatMap_cons, hnil, append_nil]
      · rw [← ih hrest htail]
        unfold addedOf
        rw [filter_cons, if_neg]
        rw [decide_eq_true_eq]
        exact fun heq => hapart conv htail hmsgs heq.symm

theorem Distinct.of_initial {done : List ParsedConversation} (hdist : Distinct convs)
    (hinit : done <+: convs) : Distinct done :=
  List.Nodup.sublist ((hinit.sublist.filter _).map _) hdist

/-- The batch does not name twice an id that it would store. -/
def NamesOnce (db : Db Vector) (imported : Import Vector) : Prop :=
  Distinct (imported.batch.filter fun conv => db.rowsOf conv.sourceId = [])

variable {imported : Import Vector}

theorem rowsOf_bulkImport {done : List ParsedConversation}
    (hstored : (db.bulkImport imported).1.stored = db.stored ++ added done) (sourceId : String) :
    (db.bulkImport imported).1.rowsOf sourceId = db.rowsOf sourceId ++ addedOf done sourceId := by
  unfold rowsOf
  rw [hstored, filter_append, map_append, filter_added]

theorem rowsOf_step (imported : Import Vector) (hnames : db.NamesOnce imported)
    (sourceId : String) : (db.bulkImport imported).1.rowsOf sourceId = db.rowsOf sourceId ∨
      (db.rowsOf sourceId = [] ∧ ∃ conv ∈ imported.batch, conv.sourceId = sourceId ∧
        (db.bulkImport imported).1.rowsOf sourceId = conv.rows) := by
  obtain ⟨done, hinit, hstored, -⟩ := bulkImport_stores imported db
  have hrows := rowsOf_bulkImport hstored sourceId
  by_cases hnamed : ∃ conv ∈ done, conv.sourceId = sourceId ∧ conv.messages ≠ []
  · obtain ⟨conv, hconv, rfl, hmsgs⟩ := hnamed
    have hnew := mem_filter.mp (hinit.subset hconv)
    have hnone : db.rowsOf conv.sourceId = [] := of_decide_eq_true hnew.2
    refine .inr ⟨hnone, conv, hnew.1, rfl, ?_⟩
    rw [hrows, hnone, nil_append]
    exact addedOf_once (Distinct.of_initial hnames hinit) hconv hmsgs
  · left
    rw [hrows, addedOf_eq_nil, append_nil]
    intro conv hconv hsame
    by_contra hmsgs
    exact hnamed ⟨conv, hconv, hsame, hmsgs⟩

theorem rowsOf_of_ok {result : BulkImportResult}
    (hok : (db.bulkImport imported).2 = .ok result)
    (hconv : conv ∈ imported.batch) (hmsgs : conv.messages ≠ []) :
    (db.bulkImport imported).1.rowsOf conv.sourceId ≠ [] := by
  obtain ⟨done, -, hstored, hof⟩ := bulkImport_stores imported db
  obtain ⟨rfl, -⟩ := hof result hok
  rw [rowsOf_bulkImport hstored, Ne, append_eq_nil_iff, not_and]
  intro hnone hadded
  unfold addedOf at hadded
  rw [flatMap_eq_nil_iff] at hadded
  refine hmsgs (rows_eq_nil.mp (hadded conv ?_))
  exact mem_filter.mpr ⟨mem_filter.mpr ⟨hconv, decide_eq_true hnone⟩, decide_eq_true rfl⟩

/-! ## Runs -/

variable {imports : List (Import Vector)}

theorem rowsOf_run (hrun : Run (Restrict Step NamesOnce) db imports db') (sourceId : String) :
    (db.rowsOf sourceId ≠ [] → db'.rowsOf sourceId = db.rowsOf sourceId) ∧
      (db.rowsOf sourceId = [] → db'.rowsOf sourceId = [] ∨
        ∃ imported ∈ imports, ∃ conv ∈ imported.batch, conv.sourceId = sourceId ∧
          db'.rowsOf sourceId = conv.rows) := by
  induction hrun with
  | refl s => exact ⟨fun _ => rfl, fun hnone => .inl hnone⟩
  | @cons s m t imported rest hone _ ih =>
    obtain ⟨hnames, rfl⟩ := hone
    rcases rowsOf_step imported hnames sourceId with hsame | ⟨hnone, conv, hconv, hid, hrows⟩
    · rw [hsame] at ih
      refine ⟨ih.1, fun hnone => (ih.2 hnone).imp_right ?_⟩
      rintro ⟨other, hother, hvers⟩
      exact ⟨other, mem_cons_of_mem _ hother, hvers⟩
    · refine ⟨absurd hnone, fun _ => ?_⟩
      by_cases hempty : conv.rows = []
      · rw [hempty] at hrows
        refine (ih.2 hrows).imp_right ?_
        rintro ⟨other, hother, hvers⟩
        exact ⟨other, mem_cons_of_mem _ hother, hvers⟩
      · rw [← hrows] at hempty
        exact .inr ⟨imported, mem_cons_self, conv, hconv, hid, (ih.1 hempty).trans hrows⟩

/-- No conversation was imported yet; other memories may be there. -/
def Fresh (db : Db Vector) : Prop :=
  ∀ (vendor : Vendor) (externalId : String), db.rowsOf (vendor.buildSourceId externalId) = []

def Whole (imports : List (Import Vector)) (db : Db Vector) : Prop :=
  ∀ (vendor : Vendor) (externalId : String), db.rowsOf (vendor.buildSourceId externalId) = [] ∨
    ∃ imported ∈ imports, ∃ version ∈ imported.batch,
      version.vendor = vendor ∧ version.externalId = externalId ∧
      db.rowsOf (vendor.buildSourceId externalId) = version.rows

theorem whole_of_run {start : Db Vector} (hstart : start.Fresh)
    (hrun : Run (Restrict Step NamesOnce) start imports db) : db.Whole imports := by
  intro vendor externalId
  refine ((rowsOf_run hrun _).2 (hstart vendor externalId)).imp_right ?_
  rintro ⟨imported, himp, version, hvers, hid, hrows⟩
  obtain ⟨hvend, hext⟩ := Vendor.buildSourceId_inj.mp hid
  exact ⟨imported, himp, version, hvers, hvend, hext, hrows⟩

/-- In a run whose imports name no new id twice: every state holds only whole conversations; what
is stored is never changed; and an import that returned has counted right, and each of its
conversations ends with the rows of one imported version. -/
theorem imports_store_whole {start t : Db Vector} {imports : List (Import Vector)}
    (hstart : start.Fresh) (hrun : Run (Restrict Step NamesOnce) start imports t) :
    t.Whole imports ∧ ∀ before imported after s, imports = before ++ imported :: after →
        Run (Restrict Step NamesOnce) start before s →
        Run (Restrict Step NamesOnce) s (imported :: after) t →
        (∀ sourceId, s.rowsOf sourceId ≠ [] →
          (s.bulkImport imported).1.rowsOf sourceId = s.rowsOf sourceId ∧
          t.rowsOf sourceId = s.rowsOf sourceId) ∧
        ∀ result, (s.bulkImport imported).2 = .ok result →
          result.conversationsIngested + result.conversationsSkippedExisting =
            imported.batch.length ∧
          (s.bulkImport imported).1.memories.length = s.memories.length + result.memoriesStored ∧
          ∀ conv ∈ imported.batch, ∃ source ∈ imports, ∃ version ∈ source.batch,
            version.SameId conv ∧ t.rowsOf conv.sourceId = version.rows := by
  have hwhole := whole_of_run hstart hrun
  refine ⟨hwhole, ?_⟩
  intro before imported after s himports hbefore hrest
  obtain ⟨mid, ⟨hnames, rfl⟩, hafter⟩ := Run.cons_iff.mp hrest
  obtain ⟨done, hinit, hstored, hof⟩ := bulkImport_stores imported s
  refine ⟨fun sourceId hsome => ?_, fun result hok => ?_⟩
  · rcases rowsOf_step imported hnames sourceId with hsame | ⟨hnone, -⟩
    · refine ⟨hsame, ?_⟩
      rw [← hsame] at hsome ⊢
      exact (rowsOf_run hafter sourceId).1 hsome
    · exact absurd hnone hsome
  · obtain ⟨hdone, hing, hskip, hmemor⟩ := hof result hok
    have hlen : done.length ≤ imported.batch.length :=
      Nat.le_trans hinit.length_le (List.length_filter_le _ _)
    refine ⟨by omega, ?_, fun conv hconv => ?_⟩
    · have hcount := congrArg List.length hstored
      rw [List.length_append, ← hmemor] at hcount
      unfold stored at hcount
      rw [List.length_map, List.length_map] at hcount
      exact hcount
    · by_cases hmsgs : conv.messages = []
      · rcases hwhole conv.vendor conv.externalId with hnone |
          ⟨source, hsourc, version, hvers, hvend, hext, hrows⟩
        · refine ⟨imported, ?_, conv, hconv, ⟨rfl, rfl⟩, ?_⟩
          · rw [himports]
            exact List.mem_append_right _ List.mem_cons_self
          · rw [rows_eq_nil.mpr hmsgs]
            exact hnone
        · exact ⟨source, hsourc, version, hvers, ⟨hvend, hext⟩, hrows⟩
      · have hsome := rowsOf_of_ok hok hconv hmsgs
        have hkept := (rowsOf_run hafter conv.sourceId).1 hsome
        rcases hwhole conv.vendor conv.externalId with hnone |
          ⟨source, hsourc, version, hvers, hvend, hext, hrows⟩
        · rw [← hkept] at hsome
          exact absurd hnone hsome
        · exact ⟨source, hsourc, version, hvers, ⟨hvend, hext⟩, hrows⟩

def emptyDb : Db Unit := ⟨[], []⟩

theorem emptyDb_fresh : emptyDb.Fresh := fun _ _ => rfl

def sliceRun (name : String) (rows : ℕ) (fate : SliceFate) : SliceRun Unit where
  embeddings := .ok (List.replicate rows ())
  newV4 := fun n => name ++ String.ofList (List.replicate n 'u')
  now := 0
  fate := fate

def chat (externalId : String) (contents : List String) : ParsedConversation :=
  ⟨externalId, .claude, some "chat", contents.map fun content => ⟨content, none⟩⟩

def interrupted : Import Unit where
  batch := [chat "a" ["a0", "a1"], chat "b" ["b0"]]
  flushEntries := 1
  lookupFails := none
  runs := fun slice => if slice = 0 then sliceRun "first" 2 .commits
    else sliceRun "second" 1 (.crashed false)

def retried : Import Unit :=
  { interrupted with runs := fun _ => sliceRun "third" 1 .commits }

theorem imports_store_whole_retried :
    ((emptyDb.bulkImport interrupted).1.bulkImport retried).2 = .ok ⟨1, 1, 1⟩ ∧
      ∃ version : ParsedConversation, version.SameId (chat "a" ["a0", "a1"]) ∧
        ((emptyDb.bulkImport interrupted).1.bulkImport retried).1.rowsOf "import_claude_a" =
          version.rows := by
  have hok : ((emptyDb.bulkImport interrupted).1.bulkImport retried).2 = .ok ⟨1, 1, 1⟩ := by
    decide +kernel
  have hfirst : Restrict Step NamesOnce emptyDb interrupted (emptyDb.bulkImport interrupted).1 :=
    ⟨by unfold NamesOnce Distinct; decide +kernel, rfl⟩
  have hsec : Restrict Step NamesOnce (emptyDb.bulkImport interrupted).1 retried
      ((emptyDb.bulkImport interrupted).1.bulkImport retried).1 :=
    ⟨by unfold NamesOnce Distinct; decide +kernel, rfl⟩
  obtain ⟨-, hparts⟩ := imports_store_whole emptyDb_fresh (.cons hfirst (.single hsec))
  obtain ⟨-, hres⟩ := hparts [interrupted] retried [] _ rfl (.single hfirst) (.single hsec)
  obtain ⟨-, -, hversi⟩ := hres _ hok
  obtain ⟨source, -, version, -, hsame, hrows⟩ := hversi (chat "a" ["a0", "a1"])
    List.mem_cons_self
  exact ⟨hok, version, hsame, hrows⟩

/-- One export with the same conversation twice. -/
def repeated : Import Unit where
  batch := [chat "a" ["a0"], chat "a" ["a0"]]
  flushEntries := rawImportFlushEntries
  lookupFails := none
  runs := fun _ => sliceRun "first" 2 .commits

/-- Both copies are new when the lookup is made, and both are stored. -/
theorem repeated_id_is_stored_twice :
    ¬ ∀ (start t : Db Unit) (imports : List (Import Unit)), start.Fresh →
      Run Step start imports t → t.Whole imports := by
  intro hclaim
  have hrows : (emptyDb.bulkImport repeated).1.rowsOf "import_claude_a" =
      [⟨0, "a0", "chat"⟩, ⟨0, "a0", "chat"⟩] := by
    decide +kernel
  rcases hclaim emptyDb _ [repeated] emptyDb_fresh (.single rfl) .claude "a" with hnone |
    ⟨source, hsourc, version, hvers, -, -, hversio⟩
  · exact absurd (hrows.symm.trans hnone) (by decide)
  · obtain rfl := List.mem_singleton.mp hsourc
    have hchat : version = chat "a" ["a0"] := by
      simpa [repeated] using hvers
    subst hchat
    exact absurd (hrows.symm.trans hversio) (by decide)

end Db

end Wenlan.Imports
