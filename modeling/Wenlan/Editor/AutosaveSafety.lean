import Wenlan.Editor.AutosaveRuns

/-!
# Safety of the autosave

The server only adds to what it has had, the editor's baseline is a page it has read there, and
with what every step keeps of the editor this holds in every run.
-/

namespace Wenlan.Editor

open Support.Transition PageAutosave Option

variable {s s' : PageAutosave} {world after : World}

structure Server.Ordered (server : Server) : Prop where
  ids : ∀ id, ∀ page ∈ server.history id, page.id = id
  sorted : ∀ id, (server.history id).Pairwise fun newer older => older.version < newer.version

theorem Server.Ordered.unique {server : Server} (h : server.Ordered) {page other : CanonicalPage}
    (hpage : server.Has page) (hother : server.Has other) (hid : page.id = other.id)
    (hvers : page.version = other.version) : page = other := by
  have hsame : (server.history page.id).Pairwise fun a b => a.version = b.version → a = b := by
    apply (h.sorted page.id).imp
    intro a b hlt heq
    omega
  have hflip : (server.history page.id).Pairwise fun a b => b.version = a.version → b = a :=
    hsame.imp fun hab heq => (hab heq.symm).symm
  unfold Server.Has at hother
  rw [← hid] at hother
  exact hsame.forall_of_forall_of_flip (fun _ _ _ => rfl) hflip hpage hother hvers

theorem Server.Has.push {server : Server} {page : CanonicalPage} (h : server.Has page)
    (other : CanonicalPage) : (server.push other).Has page := by
  unfold Server.Has Server.push
  dsimp only
  split
  · exact List.mem_cons_of_mem _ h
  · exact h

theorem Server.Ordered.push {server : Server} (h : server.Ordered) {page : CanonicalPage}
    (hnewer : ∀ past ∈ server.history page.id, past.version < page.version) :
    (server.push page).Ordered where
  ids := by
    intro id other hother
    change other ∈ if id = page.id then page :: server.history id else server.history id at hother
    split at hother
    · rename_i hid
      obtain rfl | hpast := List.mem_cons.mp hother
      · exact hid.symm
      · exact h.ids id other hpast
    · exact h.ids id other hother
  sorted := by
    intro id
    change List.Pairwise _ (if id = page.id then page :: server.history id else server.history id)
    split
    · rename_i hid
      rw [hid]
      exact List.pairwise_cons.mpr ⟨hnewer, h.sorted page.id⟩
    · exact h.sorted id

theorem accepts_newer {server : Server} (h : server.Ordered) {input : UpdatePageInput}
    (hacc : server.accepts input) :
    ∀ past ∈ server.history input.id, past.version < input.expectedVersion + 1 := by
  unfold Server.accepts Server.current at hacc
  obtain ⟨-, hcur⟩ := Bool.and_eq_true_iff.mp hacc
  have hsort := h.sorted input.id
  split at hcur
  · cases hcur
  · cases hhistory : server.history input.id with
    | nil => simp
    | cons head rest =>
      rw [hhistory] at hcur hsort
      have hhead : head.version = input.expectedVersion := by simpa using hcur
      intro past hpast
      obtain rfl | hrest := List.mem_cons.mp hpast
      · omega
      · have hlt := (List.pairwise_cons.mp hsort).1 past hrest
        omega

/-- What a server step does: a version is added, newer than the others, or none is. -/
def Server.Grows (before after : Server) : Prop :=
  after.history = before.history ∨
    ∃ page, (∀ past ∈ before.history page.id, past.version < page.version) ∧
      after.history = (before.push page).history

theorem Server.Grows.has {server server' : Server} (h : server.Grows server')
    {page : CanonicalPage} (hpage : server.Has page) : server'.Has page := by
  obtain hsame | ⟨other, -, hpush⟩ := h
  · unfold Server.Has
    rw [hsame]
    exact hpage
  · have hafter := hpage.push other
    unfold Server.Has at hafter ⊢
    rw [hpush]
    exact hafter

theorem Server.Grows.ordered {server server' : Server} (h : server.Grows server')
    (hord : server.Ordered) : server'.Ordered := by
  obtain hsame | ⟨page, hnewer, hpush⟩ := h
  · constructor
    · rw [hsame]
      exact hord.ids
    · rw [hsame]
      exact hord.sorted
  · have hafter := hord.push hnewer
    constructor
    · rw [hpush]
      exact hafter.ids
    · rw [hpush]
      exact hafter.sorted

theorem serve_grows {server : Server} (h : server.Ordered) (input : UpdatePageInput) :
    server.Grows (server.serve input) := by
  unfold Server.serve
  split
  · rename_i hacc
    exact .inr ⟨_, accepts_newer h hacc, rfl⟩
  · exact .inl rfl

theorem remote_grows (server : Server) (page : CanonicalPage) :
    server.Grows (server.remote page) := by
  unfold Server.remote
  split
  · rename_i hnewer
    refine .inr ⟨page, ?_, rfl⟩
    simpa using hnewer
  · exact .inl rfl

theorem reads_has {server : Server} {page : CanonicalPage}
    (h : server.reads (some page)) : server.Has page := by
  exact List.contains_iff_mem.mp h

/-! ## Where the baseline comes from -/

/-- A step that keeps the source, with the same baseline or one that was read. -/
structure Rebased (has : CanonicalPage → Prop) (before after : PageAutosave) : Prop where
  source : after.source = before.source
  baseline : after.baseline = before.baseline ∨ ∃ page, has page ∧ after.baseline =
      some { pageId := page.id, content := page.content, version := page.version }

variable {has : CanonicalPage → Prop}

theorem Rebased.same (hsourc : s'.source = s.source) (hbas : s'.baseline = s.baseline) :
    Rebased has s s' :=
  ⟨hsourc, .inl hbas⟩

theorem Rebased.trans {t : PageAutosave} (h : Rebased has s s') (h' : Rebased has s' t) :
    Rebased has s t where
  source := h'.source.trans h.source
  baseline := by
    obtain hsame | hread := h'.baseline
    · rw [hsame]
      exact h.baseline
    · exact .inr hread

variable {result : Option (Option CanonicalPage)}

section

variable (s : PageAutosave)

theorem schedule_rebased : Rebased has s s.schedule := by
  unfold schedule
  split <;> exact .same rfl rfl

theorem drainLoop_rebased (generation : Nat)
    (replay : Option PendingPageSave) : Rebased has s (s.drainLoop generation replay).1 := by
  obtain ⟨empty, heq, -⟩ | ⟨pending, baseline, operations, -, heq, -⟩ :=
    drainLoop_cases s generation replay
  all_goals
    rw [heq]
    exact .same rfl rfl

theorem start_rebased (replay : Option PendingPageSave) : Rebased has s (s.start replay) := by
  have hdrain : Rebased has s (s.drain s.generation replay).1 := by
    unfold drain
    split
    · exact .same rfl rfl
    · exact drainLoop_rebased s s.generation replay
  exact hdrain.trans (.same rfl rfl)

theorem flush_rebased : Rebased has s s.flush := by
  have hcanc : Rebased has s s.cancelTimer := .same rfl rfl
  unfold flush
  dsimp only
  split
  · exact hcanc
  · exact hcanc.trans (start_rebased s.cancelTimer none)

theorem retry_rebased : Rebased has s s.retry := by
  have hcanc : Rebased has s s.cancelTimer := .same rfl rfl
  unfold retry
  dsimp only
  split
  · exact hcanc
  · have hidle : Rebased has s { s.cancelTimer with state := .idle } := .same rfl rfl
    exact hidle.trans (start_rebased _ _)

theorem timerFires_rebased : Rebased has s s.timerFires := by
  unfold timerFires
  split
  · have hcanc : Rebased has s s.cancelTimer := .same rfl rfl
    exact hcanc.trans (flush_rebased s.cancelTimer)
  · exact .same rfl rfl

theorem settled_rebased : Rebased has s s.settled := by
  unfold settled
  split
  · have hgone : Rebased has s { s with running := none } := .same rfl rfl
    dsimp only
    split
    · exact hgone.trans (schedule_rebased _)
    · exact hgone
  · exact .same rfl rfl

theorem setComposing_rebased (composing : Bool) : Rebased has s (s.setComposing composing) := by
  have hset : Rebased has s { s with composing } := .same rfl rfl
  unfold setComposing
  split
  · exact hset.trans (.same rfl rfl)
  · exact hset.trans (schedule_rebased _)

theorem setSource_baseline (source : String) : (s.setSource source).baseline = s.baseline := by
  unfold setSource
  split
  · rfl
  · exact (schedule_fields _).2.2.2.2.2

theorem confirmMissing_rebased (generation : Nat) (pageId : String)
    (operationId : Nat) : Rebased has s (s.confirmMissing generation pageId operationId) := by
  unfold confirmMissing
  split
  · exact .same rfl rfl
  · split <;> exact .same rfl rfl

theorem observeConflictLatest_rebased (page : Option CanonicalPage)
    (operationId : Nat) : Rebased has s (s.observeConflictLatest page operationId) := by
  obtain ⟨latest, heq⟩ := observeConflictLatest_fields s page operationId
  rw [heq]
  exact .same rfl rfl

theorem afterLatest_rebased (generation : Nat) (pageId : String)
    (operationId : Nat) (result : Option (Option CanonicalPage)) :
    Rebased has s (s.afterLatest generation pageId operationId result) := by
  unfold afterLatest
  split
  · exact .same rfl rfl
  · match result with
    | none => exact .same rfl rfl
    | some none => exact confirmMissing_rebased s generation pageId operationId
    | some (some page) => exact observeConflictLatest_rebased s (some page) operationId

theorem latestRead_rebased (read : LatestRead)
    (result : Option (Option CanonicalPage)) : Rebased has s (s.latestRead read result) := by
  have herase : Rebased has s { s with latestReads := s.latestReads.erase read } := .same rfl rfl
  exact herase.trans (afterLatest_rebased _ read.generation read.pageId read.operationId result)

theorem readConflictLatest_rebased (operationId : Nat) :
    Rebased has s (s.readConflictLatest operationId) := by
  unfold readConflictLatest
  split
  · split <;> exact .same rfl rfl
  · exact .same rfl rfl

theorem observeCanonical_rebased {page : Option CanonicalPage}
    (hpage : ∀ canonical, page = some canonical → has canonical) :
    Rebased has s (s.observeCanonical page) := by
  unfold observeCanonical
  split
  · exact .same rfl rfl
  · exact .same rfl rfl
  · rename_i baseline canonical hbas
    split
    · exact .same rfl rfl
    rename_i hid
    split
    · exact observeConflictLatest_rebased s _ _
    · split
      · exact .same rfl rfl
      split
      · rename_i hcont
        refine ⟨rfl, .inr ⟨canonical, hpage canonical rfl, ?_⟩⟩
        rw [not_not.mp hid, hcont]
      · exact .same rfl rfl
    · exact .same rfl rfl

theorem afterWrite_rebased (generation : Nat) (input : UpdatePageInput)
    (outcome : PageSaveSettlement) : Rebased has s (s.afterWrite generation input outcome).1 := by
  unfold afterWrite
  split
  · exact .same rfl rfl
  · split <;> exact .same rfl rfl

theorem afterReconcile_rebased (generation : Nat) (pageId : String) (pending : PendingPageSave)
    (hresul : ∀ canonical, result = some (some canonical) → has canonical) :
    Rebased has s (s.afterReconcile generation pageId pending result).1 := by
  unfold afterReconcile
  split
  · exact .same rfl rfl
  · match result with
    | none => exact .same rfl rfl
    | some none => exact confirmMissing_rebased s generation pageId pending.operationId
    | some (some canonical) =>
      dsimp only
      split
      · exact .same rfl rfl
      split
      · exact .same rfl rfl
      · refine Rebased.trans ?_ (drainLoop_rebased _ generation none)
        exact ⟨rfl, .inr ⟨canonical, hresul canonical rfl, rfl⟩⟩

end

variable {arrival : Arrival}

section

variable (s : PageAutosave) (drain : Drain)
  (harr : ∀ canonical, arrival = .read (some (some canonical)) → has canonical)
include harr

theorem resume_rebased : Rebased has s (s.resume drain arrival).1 := by
  unfold resume
  split
  · exact afterWrite_rebased s drain.generation _ _
  · exact afterLatest_rebased s drain.generation _ _ _
  · rename_i pageId pending result _
    refine afterReconcile_rebased s drain.generation pageId pending ?_
    intro canonical hresul
    apply harr canonical
    rw [hresul]
  · exact .same rfl rfl

theorem resumeRunning_rebased : Rebased has s (s.resumeRunning drain arrival) := by
  have hended : Rebased has s { s with running := some { drain with point := .ended } } :=
    .same rfl rfl
  have hresum := hended.trans (resume_rebased _ drain harr)
  unfold resumeRunning
  dsimp only
  split
  · exact hresum
  · exact hresum.trans (.same rfl rfl)

theorem resumeStale_rebased : Rebased has s (s.resumeStale drain arrival) :=
  (resume_rebased s drain harr).trans (.same rfl rfl)

end

/-! ## The system -/

def SentResolved (sent : List Sent) : Prop :=
  ∀ entry ∈ sent, ∀ id ∈ entry.unresolved, id = entry.operationId

structure Protected (world : World) : Prop where
  sound : Sound world.session world.unresolved world.editor
  wakes : Wakes world.editor
  read : ∀ baseline, world.editor.baseline = some baseline → world.server.Has
    { id := baseline.pageId, content := baseline.content, version := baseline.version }
  ordered : world.server.Ordered
  resolved : SentResolved world.sent

theorem take_fields (world : World) (editor : PageAutosave) :
    (world.take editor).editor = editor ∧ (world.take editor).server = world.server ∧
      (world.take editor).session = world.session := by
  unfold World.take
  split <;> exact ⟨rfl, rfl, rfl⟩

variable {editor : PageAutosave}

theorem newWrite_writing {before : PageAutosave} {generation : Nat} {input : UpdatePageInput}
    (h : editor.running = some { generation, point := .writing input }) :
    newWrite before editor = if before.running = editor.running then none else some input := by
  unfold newWrite
  rw [h]

/-- A write that the editor comes to wait for is sent when nothing else is unresolved. -/
theorem take_ran (h : Ran world.session world.unresolved world.editor editor)
    (hres : SentResolved world.sent) :
    Sound world.session (world.take editor).unresolved editor ∧
      SentResolved (world.take editor).sent := by
  obtain ⟨point, hrunni, hne, hsound, halone⟩ | ⟨hkept, hsound⟩ := h
  · cases point with
    | writing input =>
      have hnew : newWrite world.editor editor = some input := by
        rw [newWrite_writing hrunni, if_neg hne]
      unfold World.take
      rw [hnew]
      refine ⟨hsound, fun entry hentry => ?_⟩
      obtain rfl | hold := List.mem_cons.mp hentry
      · exact halone
      · exact hres entry hold
    | readingLatest pageId operationId =>
      have hnew : newWrite world.editor editor = none := by
        unfold newWrite
        rw [hrunni]
      unfold World.take
      rw [hnew]
      exact ⟨hsound, hres⟩
    | reconciling pageId pending =>
      have hnew : newWrite world.editor editor = none := by
        unfold newWrite
        rw [hrunni]
      unfold World.take
      rw [hnew]
      exact ⟨hsound, hres⟩
    | ended =>
      have hnew : newWrite world.editor editor = none := by
        unfold newWrite
        rw [hrunni]
      unfold World.take
      rw [hnew]
      exact ⟨hsound, hres⟩
  · have hnew : newWrite world.editor editor = none := by
      unfold newWrite
      split
      · rename_i generation input hrunni
        rw [hkept _ hrunni, if_pos hrunni.symm]
      · rfl
    unfold World.take
    rw [hnew]
    exact ⟨hsound, hres⟩

theorem Protected.take (h : Protected world)
    (hran : Ran world.session world.unresolved world.editor editor ∧ Wakes editor)
    (hbas : editor.baseline = world.editor.baseline ∨ ∃ page, world.server.Has page ∧
      editor.baseline =
        some { pageId := page.id, content := page.content, version := page.version }) :
    Protected (world.take editor) := by
  obtain ⟨hsound, hres⟩ := take_ran hran.1 h.resolved
  obtain ⟨hedit, hserv, hses⟩ := take_fields world editor
  exact
    { sound := by
        rw [hedit, hses]
        exact hsound
      wakes := by
        rw [hedit]
        exact hran.2
      read := by
        rw [hedit, hserv]
        intro baseline hcur
        obtain hsame | ⟨page, hpage, hread⟩ := hbas
        · exact h.read baseline (hsame.symm.trans hcur)
        · obtain rfl := mem_unique hread hcur
          exact hpage
      ordered := by
        rw [hserv]
        exact h.ordered
      resolved := hres }

theorem Sound.learns {session : Nat} {unresolved fewer : List Nat}
    (h : Sound session unresolved s) (hfewer : ∀ id ∈ fewer, id ∈ unresolved) :
    Sound session fewer s where
  behind := h.behind
  generation := h.generation
  coherent := h.coherent
  awaiting := by
    intro pending hpending
    obtain ⟨rfl, hstate⟩ := h.awaiting pending hpending
    exact ⟨List.eq_nil_iff_forall_not_mem.mpr fun id hid => List.not_mem_nil (hfewer id hid), hstate⟩
  known := by
    obtain rfl | hconflict | ⟨hnone, pending, hstate, hids⟩ := h.known
    · exact .inl (List.eq_nil_iff_forall_not_mem.mpr fun id hid => List.not_mem_nil (hfewer id hid))
    · exact .inr (.inl hconflict)
    · exact .inr (.inr ⟨hnone, pending, hstate, fun id hid => hids id (hfewer id hid)⟩)
  baselined := h.baselined
  waited := h.waited

theorem hear_fields (world : World) (drain : Drain) (arrival : Arrival) :
    (world.hear drain arrival).editor = world.editor ∧
      (world.hear drain arrival).server = world.server ∧
      (world.hear drain arrival).session = world.session ∧
      (world.hear drain arrival).sent = world.sent ∧
      (world.hear drain arrival).unresolved = heard world.unresolved drain.point arrival := by
  unfold World.hear heard
  cases drain.point with
  | writing input =>
    cases arrival with
    | wrote outcome =>
      simp only [World.learn]
      split <;> exact ⟨rfl, rfl, rfl, rfl, rfl⟩
    | read result => exact ⟨rfl, rfl, rfl, rfl, rfl⟩
  | readingLatest pageId operationId => exact ⟨rfl, rfl, rfl, rfl, rfl⟩
  | reconciling pageId pending => exact ⟨rfl, rfl, rfl, rfl, rfl⟩
  | ended => exact ⟨rfl, rfl, rfl, rfl, rfl⟩

theorem heard_subset (unresolved : List Nat) (point : DrainPoint) (arrival : Arrival) :
    ∀ id ∈ heard unresolved point arrival, id ∈ unresolved := by
  intro id hid
  unfold heard at hid
  split at hid
  · split at hid
    · exact hid
    · exact (List.mem_filter.mp hid).1
  · exact hid

theorem Protected.hears (h : Protected world) (drain : Drain) (arrival : Arrival) :
    Protected (world.hear drain arrival) := by
  obtain ⟨hedit, hserv, hses, hsent, hunr⟩ := hear_fields world drain arrival
  exact
    { sound := by
        rw [hedit, hses, hunr]
        exact h.sound.learns (heard_subset _ _ _)
      wakes := by
        rw [hedit]
        exact h.wakes
      read := by
        rw [hedit, hserv]
        exact h.read
      ordered := by
        rw [hserv]
        exact h.ordered
      resolved := by
        rw [hsent]
        exact h.resolved }

theorem Protected.server (h : Protected world) {server : Server}
    (hgrows : world.server.Grows server) : Protected { world with server } where
  sound := h.sound
  wakes := h.wakes
  read := fun baseline hbas => hgrows.has (h.read baseline hbas)
  ordered := hgrows.ordered h.ordered
  resolved := h.resolved

theorem all_reads {server : Server} (h : result.all server.reads) {canonical : CanonicalPage}
    (hresul : result = some (some canonical)) : server.Has canonical := by
  rw [hresul] at h
  exact reads_has h

theorem brings_has {server : Server} {point : DrainPoint} (h : server.brings point arrival) :
    ∀ canonical, arrival = .read (some (some canonical)) → server.Has canonical := by
  rintro canonical rfl
  unfold Server.brings at h
  split at h
  · rename_i heq
    cases heq
  · rename_i result heq
    obtain rfl := Arrival.read.inj heq
    split at h
    · exact all_reads h rfl
    · exact all_reads h rfl
    · cases h

variable {event : AutosaveEvent}

theorem Protected.step (h : Protected world)
    (hstep : AutosaveStep world event after) : Protected after := by
  unfold AutosaveStep World.next at hstep
  cases event with
  | setSource source =>
    cases hstep
    exact h.take (setSource_ran h.sound h.wakes source) (.inl (setSource_baseline _ source))
  | setComposing composing =>
    cases hstep
    exact h.take (setComposing_ran h.sound composing) (setComposing_rebased _ composing).baseline
  | observeCanonical page =>
    obtain ⟨hreads, heq⟩ := ite_none_right_eq_some.mp hstep
    cases heq
    refine h.take (observeCanonical_ran h.sound h.wakes page)
      (observeCanonical_rebased _ ?_).baseline
    rintro canonical rfl
    exact reads_has hreads
  | observeConflictLatest page operationId =>
    obtain ⟨-, heq⟩ := ite_none_right_eq_some.mp hstep
    cases heq
    exact h.take (observeConflictLatest_ran h.sound h.wakes page operationId)
      (observeConflictLatest_rebased _ page operationId).baseline
  | readConflictLatest operationId =>
    cases hstep
    exact h.take (readConflictLatest_ran h.sound h.wakes operationId)
      (readConflictLatest_rebased _ operationId).baseline
  | latestRead read result =>
    obtain ⟨-, heq⟩ := ite_none_right_eq_some.mp hstep
    cases heq
    exact h.take (latestRead_ran h.sound h.wakes read result)
      (latestRead_rebased _ read result).baseline
  | flush =>
    cases hstep
    exact h.take (flush_ran h.sound) (flush_rebased _).baseline
  | retry =>
    cases hstep
    exact h.take (retry_ran h.sound) (retry_rebased _).baseline
  | timer =>
    cases hstep
    exact h.take (timerFires_ran h.sound h.wakes) (timerFires_rebased _).baseline
  | settled =>
    cases hstep
    exact h.take (settled_ran h.sound h.wakes) (settled_rebased _).baseline
  | reset page =>
    obtain ⟨hreads, heq⟩ := ite_none_right_eq_some.mp hstep
    cases heq
    obtain ⟨hsound, hwakes⟩ := reset_sound h.sound page
    refine ⟨hsound, hwakes, ?_, h.ordered, h.resolved⟩
    intro baseline hbas
    cases page with
    | none => cases hbas
    | some page =>
      cases hbas
      exact reads_has hreads
  | resume arrival =>
    dsimp only at hstep
    split at hstep
    · cases hstep
    · rename_i drain hrunni
      obtain ⟨hbring, heq⟩ := ite_none_right_eq_some.mp hstep
      cases heq
      obtain ⟨hedit, hserv, hses, -, hunr⟩ := hear_fields world drain arrival
      refine (h.hears drain arrival).take ?_ ?_
      · rw [hedit, hses, hunr]
        exact resumeRunning_ran h.sound hrunni hbring
      · rw [hedit, hserv]
        exact (resumeRunning_rebased _ drain (brings_has hbring)).baseline
  | resumeStale drain arrival =>
    obtain ⟨⟨hstale, hbring⟩, heq⟩ := ite_none_right_eq_some.mp hstep
    cases heq
    exact h.take (resumeStale_ran h.sound h.wakes hstale arrival)
      (resumeStale_rebased _ drain (brings_has hbring)).baseline
  | serve input =>
    obtain ⟨-, heq⟩ := ite_none_right_eq_some.mp hstep
    cases heq
    exact h.server (serve_grows h.ordered input)
  | remote page =>
    cases hstep
    exact h.server (remote_grows world.server page)
  | delete id =>
    cases hstep
    exact h.server (.inl rfl)

theorem initial_protected (pages : String → Option CanonicalPage) :
    Protected (World.initial pages) where
  sound :=
    { behind :=
        { session_le := Nat.le_refl 0
          generation := by
            intro drain hdrain
            cases hdrain
          one := Nat.zero_le 1
          conflict := by
            intro drain hdrain
            cases hdrain }
      generation := by
        intro drain hdrain
        cases hdrain
      coherent := by
        intro drain hdrain
        cases hdrain
      awaiting := by
        intro pending hpending
        cases hpending
      known := .inl rfl
      baselined := absurd rfl
      waited := by
        intro pending hpending
        cases hpending }
  wakes := by
    intro hdirty
    cases hdirty
  read := by
    intro baseline hbas
    cases hbas
  ordered :=
    { ids := by
        intro id page hpage
        have hfilt := (filter_eq_some_iff.mp (mem_toList.mp hpage)).2
        simpa using hfilt
      sorted := by
        intro id
        change List.Pairwise _ ((pages id).filter fun page => page.id == id).toList
        cases (pages id).filter fun page => page.id == id with
        | none => exact .nil
        | some page => exact List.pairwise_singleton _ page }
  resolved := by
    intro entry hentry
    cases hentry

theorem run_protected {pages : String → Option CanonicalPage} {events : List AutosaveEvent}
    (h : Run AutosaveStep (World.initial pages) events world) : Protected world :=
  h.invariant (fun _ _ _ hkept hstep => Protected.step hkept hstep) (initial_protected pages)

theorem step_source (hstep : AutosaveStep world event after)
    (hset : ∀ source, event ≠ .setSource source) (hreset : ∀ page, event ≠ .reset page) :
    after.editor.source = world.editor.source := by
  have htake : ∀ {before : World} {editor : PageAutosave},
      Rebased (fun _ => True) world.editor editor →
      (before.take editor).editor.source = world.editor.source := by
    intro before editor hrebased
    rw [(take_fields before editor).1]
    exact hrebased.source
  unfold AutosaveStep World.next at hstep
  cases event with
  | setSource source => exact absurd rfl (hset source)
  | setComposing composing =>
    cases hstep
    exact htake (setComposing_rebased _ composing)
  | observeCanonical page =>
    obtain ⟨-, heq⟩ := ite_none_right_eq_some.mp hstep
    cases heq
    exact htake (observeCanonical_rebased _ fun _ _ => trivial)
  | observeConflictLatest page operationId =>
    obtain ⟨-, heq⟩ := ite_none_right_eq_some.mp hstep
    cases heq
    exact htake (observeConflictLatest_rebased _ page operationId)
  | readConflictLatest operationId =>
    cases hstep
    exact htake (readConflictLatest_rebased _ operationId)
  | latestRead read result =>
    obtain ⟨-, heq⟩ := ite_none_right_eq_some.mp hstep
    cases heq
    exact htake (latestRead_rebased _ read result)
  | flush =>
    cases hstep
    exact htake (flush_rebased _)
  | retry =>
    cases hstep
    exact htake (retry_rebased _)
  | timer =>
    cases hstep
    exact htake (timerFires_rebased _)
  | settled =>
    cases hstep
    exact htake (settled_rebased _)
  | reset page => exact absurd rfl (hreset page)
  | resume arrival =>
    dsimp only at hstep
    split at hstep
    · cases hstep
    · rename_i drain hrunni
      obtain ⟨-, heq⟩ := ite_none_right_eq_some.mp hstep
      cases heq
      exact htake (resumeRunning_rebased _ drain fun _ _ => trivial)
  | resumeStale drain arrival =>
    obtain ⟨-, heq⟩ := ite_none_right_eq_some.mp hstep
    cases heq
    exact htake (resumeStale_rebased _ drain fun _ _ => trivial)
  | serve input =>
    obtain ⟨-, heq⟩ := ite_none_right_eq_some.mp hstep
    cases heq
    rfl
  | remote page =>
    cases hstep
    rfl
  | delete id =>
    cases hstep
    rfl

/-! ## Every run -/

/-- The writes of this session that the editor has sent and that have not come back. -/
def World.inFlight (world : World) : List Drain :=
  (world.editor.running.toList ++ world.editor.stale).filter (Drain.writes world.session)

theorem Protected.inFlight (h : Protected world) : world.inFlight.length ≤ 1 := by
  have hone := h.sound.behind.one
  unfold World.inFlight
  cases hrunni : world.editor.running with
  | none => exact hone
  | some drain =>
    rw [toList_some, List.singleton_append, List.filter_cons]
    split
    · rename_i hwrit
      have hnil : world.editor.stale.filter (Drain.writes world.session) = [] := by
        rw [List.filter_eq_nil_iff]
        intro stale hstale hother
        have hconflict := h.sound.behind.conflict stale hstale hother
        have hcoh := h.sound.coherent drain hrunni
        unfold Drain.writes at hwrit
        cases hpoint : drain.point with
        | writing input =>
          rw [hpoint] at hcoh
          rw [hcoh.1] at hconflict
          cases hconflict
        | readingLatest pageId operationId => simp [hpoint] at hwrit
        | reconciling pageId pending => simp [hpoint] at hwrit
        | ended => simp [hpoint] at hwrit
      rw [hnil]
      exact Nat.le_refl 1
    · exact hone

/-- What the editor promises of the page it shows. -/
structure AutosaveSafe (world : World) : Prop where
  inFlight : world.inFlight.length ≤ 1
  read : ∀ baseline, world.editor.baseline = some baseline → world.server.Has
    { id := baseline.pageId, content := baseline.content, version := baseline.version }
  replayed : ∀ entry ∈ world.sent, ∀ id ∈ entry.unresolved, id = entry.operationId
  clean : ∀ baseline, world.editor.baseline = some baseline → world.editor.dirty = false →
    world.editor.source = baseline.content ∧
      (∀ page, world.server.Has page → page.id = baseline.pageId →
        page.version = baseline.version → page.content = world.editor.source) ∧
      world.unresolved = []
  wakes : Wakes world.editor

theorem dirty_false {baseline : PageEditBaseline} (hbas : s.baseline = some baseline)
    (h : s.dirty = false) : s.source = baseline.content ∧ s.state = .idle := by
  unfold dirty at h
  rw [hbas] at h
  simpa [and_assoc] using And.intro (Bool.or_eq_false_iff.mp (Bool.or_eq_false_iff.mp h).1).1
    (Bool.or_eq_false_iff.mp (Bool.or_eq_false_iff.mp h).1).2

theorem Protected.safe (h : Protected world) : AutosaveSafe world where
  inFlight := h.inFlight
  read := h.read
  replayed := h.resolved
  clean := by
    intro baseline hbas hdirty
    obtain ⟨hsourc, hidle⟩ := dirty_false hbas hdirty
    refine ⟨hsourc, fun page hpage hid hvers => ?_, (h.sound.unresolved_idle hidle).1⟩
    have hsame := h.ordered.unique hpage (h.read baseline hbas) hid hvers
    rw [hsame, hsourc]
  wakes := h.wakes

theorem step_of_next (world : World) (event : AutosaveEvent) (after : World)
    (h : world.next event = some after) : AutosaveStep world event after :=
  h

def notePage : CanonicalPage :=
  { id := "p1", content := "old", version := 1 }

def notePages (id : String) : Option CanonicalPage :=
  if id = "p1" then some notePage else none

def noteInput : UpdatePageInput :=
  { id := "p1", content := "new", expectedVersion := 1, operationId := 0
    callerId := "wenlan-app" }

/-- An edit whose write is applied although its answer is lost, replayed and read back. -/
def replayEvents : List AutosaveEvent :=
  [.reset (some notePage), .setSource "new", .timer, .serve noteInput,
    .resume (.wrote .transport), .settled, .retry, .resume (.wrote .saved),
    .resume (.read (some (some { id := "p1", content := "new", version := 2 }))), .settled]

end Wenlan.Editor
