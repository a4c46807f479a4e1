import Wenlan.Relay.SessionIndex
import Wenlan.Support.JsonText

/-!
# Who rides on a session

Every request that reaches a backend under a session id was made by the owner the session
was created for, over the route it was created on.  What each stage of a request has
established about its session holds until its end, as history only grows.
-/

namespace Wenlan.Relay

open Support (Json)
open Support.Transition Proxy

section Knowledge

variable (hashSecret : String → String)

/-- The session of a request was created by its owner on its route, as far as digests
tell. -/
def SessionFor (p : Proxy) (query : Query) (binding : String) : Option SessionRecord → Prop
  | none => query.request.sessionId = none
  | some session => query.request.sessionId = some session.id ∧
      ∃ c, p.created session.id = some c ∧ c.owner.text ∈ p.digested ∧
        c.binding ∈ p.digested ∧ hashSecret c.owner.text = hashSecret query.owner.text ∧
        hashSecret c.binding = hashSecret binding ∧ c.backendId = session.backendId

def TargetFor (p : Proxy) (route target : ConnectorRoute) : Prop :=
  connectorBinding target ∈ p.digested ∧
    hashSecret (connectorBinding target) = hashSecret (connectorBinding route)

def StageOk (p : Proxy) (query : Query) : Stage → Prop
  | .routing | .closing .. => True
  | .looking route => connectorBinding route ∈ p.digested
  | .checking route session | .authorizing route session _ =>
    connectorBinding route ∈ p.digested ∧
      SessionFor hashSecret p query (connectorBinding route) session
  | .rechecking route session target =>
    connectorBinding route ∈ p.digested ∧
      SessionFor hashSecret p query (connectorBinding route) (some session) ∧
      TargetFor hashSecret p route target
  | .dispatching route session target | .waiting route session target =>
    connectorBinding route ∈ p.digested ∧
      SessionFor hashSecret p query (connectorBinding route) session ∧
      TargetFor hashSecret p route target
  | .claiming route candidate _ =>
    connectorBinding route ∈ p.digested ∧ candidate.owner = hashSecret query.owner.text ∧
      candidate.route = hashSecret (connectorBinding route) ∧ candidate.id ∈ p.drawn

structure QueryOk (p : Proxy) (query : Query) : Prop where
  owner : query.owner.text ∈ p.digested
  stage : StageOk hashSecret p query query.stage

variable {hashSecret} {tunnelOrigin : String → Option String} {p q : Proxy}
  {query query' : Query} {store : Store} {route target : ConnectorRoute}
  {session : Option SessionRecord} {tokenCurrent : Bool} {now : Nat}

structure Grows (p q : Proxy) : Prop where
  digested : ∀ text ∈ p.digested, text ∈ q.digested
  created : ∀ id c, p.created id = some c → q.created id = some c
  drawn : ∀ id ∈ p.drawn, id ∈ q.drawn

theorem SessionFor.mono (hgrows : Grows p q) {binding : String}
    (h : SessionFor hashSecret p query binding session) :
    SessionFor hashSecret q query binding session := by
  cases session with
  | none => exact h
  | some session =>
    obtain ⟨hid, c, hc, howner, hbind, hsame⟩ := h
    exact ⟨hid, c, hgrows.created _ c hc, hgrows.digested _ howner, hgrows.digested _ hbind, hsame⟩

theorem TargetFor.mono (hgrows : Grows p q) (h : TargetFor hashSecret p route target) :
    TargetFor hashSecret q route target :=
  ⟨hgrows.digested _ h.1, h.2⟩

theorem StageOk.mono (hgrows : Grows p q) {stage : Stage} (h : StageOk hashSecret p query stage) :
    StageOk hashSecret q query stage := by
  cases stage with
  | routing | closing => trivial
  | looking => exact hgrows.digested _ h
  | checking | authorizing => exact ⟨hgrows.digested _ h.1, h.2.mono hgrows⟩
  | rechecking | dispatching | waiting =>
    exact ⟨hgrows.digested _ h.1, h.2.1.mono hgrows, h.2.2.mono hgrows⟩
  | claiming => exact ⟨hgrows.digested _ h.1, h.2.1, h.2.2.1, hgrows.drawn _ h.2.2.2⟩

theorem QueryOk.mono (hgrows : Grows p q) (h : QueryOk hashSecret p query) :
    QueryOk hashSecret q query :=
  ⟨hgrows.digested _ h.owner, h.stage.mono hgrows⟩

/-! ### The parts of a request -/

theorem beginQuery_running {request : SessionRequest} {identity : SessionIdentity}
    {token : QueryToken} (h : beginQuery request identity token now = .running query) :
    query = ⟨request, identity, token, .routing⟩ := by
  unfold beginQuery at h
  simp only [] at h
  split_ifs at h
  exact (Progress.running.inj h).symm

theorem loadRoute_running
    (h : loadRoute hashSecret store query tokenCurrent now = .running query') :
    ∃ route, store.routes query.token.grant.connectorId = some route ∧ query' = { query with
        stage :=
          if query.request.sessionId.isSome then .looking route else .checking route none } := by
  unfold loadRoute at h
  simp only [] at h
  split at h
  · cases h
  · cases h
  · next route _ hroute => exact ⟨route, hroute, (Progress.running.inj h).symm⟩

theorem lookupSession_running (h : lookupSession hashSecret store query route now =
    .running query') :
    ∃ id session, query.request.sessionId = some id ∧ store.sessions id = some session ∧
      session.owner = hashSecret query.owner.text ∧
      session.route = hashSecret (connectorBinding route) ∧
      query' = { query with stage := .checking route (some session) } := by
  unfold lookupSession at h
  split at h
  · cases h
  · next session hses =>
      obtain ⟨id, hid, hstor⟩ := Option.bind_eq_some_iff.mp hses
      split_ifs at h with huse
      simp only [usableSession, Bool.and_eq_true, beq_iff_eq] at huse
      exact ⟨id, session, hid, hstor, huse.1.1.2, huse.1.2, (Progress.running.inj h).symm⟩

theorem refuseQuery_running {answer : Answer} (h : refuseQuery query session answer =
    .running query') : ∃ session, query' = { query with stage := .closing session answer } := by
  unfold refuseQuery at h
  split at h
  · split_ifs at h
    exact ⟨_, (Progress.running.inj h).symm⟩
  · cases h

theorem loadTarget_running {refusal : Option Answer}
    (h : loadTarget hashSecret store query route session refusal tokenCurrent now =
      .running query') :
    (∃ session answer, query' = { query with stage := .closing session answer }) ∨
      ∃ target, query' = { query with stage := .authorizing route session target } := by
  unfold loadTarget at h
  split_ifs at h
  split at h
  · next answer =>
      obtain ⟨session, hclos⟩ := refuseQuery_running h
      exact .inl ⟨session, answer, hclos⟩
  · simp only [] at h
    split at h
    · cases h
    · cases h
    · exact .inr ⟨_, (Progress.running.inj h).symm⟩

theorem authorizeTarget_running
    (h : authorizeTarget hashSecret store query route session target tokenCurrent now =
      .running query') :
    hashSecret (connectorBinding target) = hashSecret (connectorBinding route) ∧
      ((∃ record, session = some record ∧
          query' = { query with stage := .rechecking route record target }) ∨
        session = none ∧ query' = { query with stage := .dispatching route none target }) := by
  unfold authorizeTarget at h
  simp only [] at h
  split at h
  · cases h
  · next hrefused =>
      have hbind :
          hashSecret (connectorBinding target) = hashSecret (connectorBinding route) := by
        by_contra hne
        simp [hne] at hrefused
      refine ⟨hbind, ?_⟩
      cases session with
      | some record => exact .inl ⟨record, rfl, (Progress.running.inj h).symm⟩
      | none =>
        split_ifs at h
        exact .inr ⟨rfl, (Progress.running.inj h).symm⟩

theorem recheckSession_running {record : SessionRecord}
    (h : recheckSession hashSecret store query route record target tokenCurrent now =
      .running query') :
    query' = { query with stage := .dispatching route (some record) target } := by
  unfold recheckSession at h
  split_ifs at h
  exact (Progress.running.inj h).symm

theorem dispatchQuery_running
    (h : dispatchQuery hashSecret tunnelOrigin store query route session target tokenCurrent
      now = .running query') : query' = { query with stage := .waiting route session target } := by
  unfold dispatchQuery at h
  split at h
  · cases h
  · split at h
    · cases h
    · split at h
      · cases h
      · exact (Progress.running.inj h).symm

theorem receiveResponse_running {upstream : Upstream} {id : String}
    (h : receiveResponse hashSecret store query route session target upstream id tokenCurrent
      now = .running query') :
    (∃ session answer, query' = { query with stage := .closing session answer }) ∨
      ∃ backendId status, query' = { query with
        stage := .claiming route (candidateSession hashSecret query route backendId id now)
          status } := by
  unfold receiveResponse at h
  split at h
  · cases h
  · split at h
    · obtain ⟨session, hclos⟩ := refuseQuery_running h
      exact .inl ⟨session, _, hclos⟩
    · split at h
      · cases h
      · split at h
        · split at h
          · cases h
          · split at h
            · exact .inr ⟨_, _, (Progress.running.inj h).symm⟩
            · cases h
        · split at h
          · cases h
          · split at h
            · exact .inl ⟨_, _, (Progress.running.inj h).symm⟩
            · cases h

end Knowledge

/-! ## The invariant -/

section Invariant

variable (hashSecret : String → String)

def Progress.claims : Progress → Option String
  | .answered _ => none
  | .running query =>
    match query.stage with
    | .claiming _ candidate _ => some candidate.id
    | _ => none

/-- A forwarded request is one of the session's owner on the session's route, as far as
digests tell. -/
def ForwardOk (p : Proxy) (f : Forward) : Prop :=
  ∀ id, f.sessionId = some id → ∃ c, p.created id = some c ∧ c.owner.text ∈ p.digested ∧
    c.binding ∈ p.digested ∧ f.owner.text ∈ p.digested ∧ connectorBinding f.route ∈ p.digested ∧
    hashSecret c.owner.text = hashSecret f.owner.text ∧
    hashSecret c.binding = hashSecret (connectorBinding f.route) ∧
    f.backendId = some c.backendId

structure ProxyOk (p : Proxy) : Prop where
  index : SessionsIndexed hashSecret p.store p.now
  recorded : ∀ id session, p.store.sessions id = some session →
    ∃ c, p.created id = some c ∧ session.owner = hashSecret c.owner.text ∧
      session.route = hashSecret c.binding ∧ session.backendId = c.backendId
  created : ∀ id c, p.created id = some c →
    id ∈ p.drawn ∧ c.owner.text ∈ p.digested ∧ c.binding ∈ p.digested
  queries : ∀ n query, p.queries n = some (.running query) → QueryOk hashSecret p query
  claims : ∀ n progress id, p.queries n = some progress → progress.claims = some id →
    p.created id = none
  distinct : ∀ n m progress progress' id, p.queries n = some progress →
    p.queries m = some progress' → progress.claims = some id → progress'.claims = some id → n = m
  forwards : ∀ f ∈ p.forwarded, ForwardOk hashSecret p f

variable {hashSecret} {p q : Proxy} {n : Nat} {progress : Progress}

theorem ForwardOk.mono (hgrows : Grows p q) {f : Forward} (h : ForwardOk hashSecret p f) :
    ForwardOk hashSecret q f := by
  intro id hid
  obtain ⟨c, hc, howner, hbind, howner', hbind', hsame⟩ := h id hid
  exact ⟨c, hgrows.created id c hc, hgrows.digested _ howner, hgrows.digested _ hbind,
    hgrows.digested _ howner', hgrows.digested _ hbind', hsame⟩

theorem proxyOk_initial : ProxyOk hashSecret .initial := by
  constructor
  · exact sessionsIndexed_empty
  all_goals intros
  all_goals contradiction

theorem ProxyOk.digest (h : ProxyOk hashSecret p) (text : String) :
    ProxyOk hashSecret (p.digest text) := by
  have hgrows : Grows p (p.digest text) :=
    ⟨fun _ hmem => List.mem_cons_of_mem _ hmem, fun _ _ hc => hc, fun _ hmem => hmem⟩
  constructor
  · exact h.index
  · exact h.recorded
  · intro id c hc
    obtain ⟨hdrawn, howner, hbind⟩ := h.created id c hc
    exact ⟨hdrawn, hgrows.digested _ howner, hgrows.digested _ hbind⟩
  · exact fun n query hquery => (h.queries n query hquery).mono hgrows
  · exact h.claims
  · exact h.distinct
  · exact fun f hf => (h.forwards f hf).mono hgrows

variable {progress' : Progress}

theorem setQuery_eq_some {m : Nat}
    (h : (p.setQuery n progress).queries m = some progress') :
    m = n ∧ progress' = progress ∨ m ≠ n ∧ p.queries m = some progress' := by
  by_cases hm : m = n
  · subst hm
    simp only [setQuery, Function.update_self] at h
    exact .inl ⟨rfl, (Option.some.inj h).symm⟩
  · simp only [setQuery, Function.update_of_ne hm] at h
    exact .inr ⟨hm, h⟩

section

variable (h : ProxyOk hashSecret p)
include h

theorem ProxyOk.setQuery
    (hquery : ∀ query, progress = .running query → QueryOk hashSecret p query)
    (hclai : ∀ id, progress.claims = some id → p.created id = none ∧
      ∀ m progress', p.queries m = some progress' → progress'.claims ≠ some id) :
    ProxyOk hashSecret (p.setQuery n progress) := by
  have hgrows : Grows p (p.setQuery n progress) :=
    ⟨fun _ hmem => hmem, fun _ _ hc => hc, fun _ hmem => hmem⟩
  constructor
  · exact h.index
  · exact h.recorded
  · exact h.created
  · intro m query hm
    rcases setQuery_eq_some hm with ⟨-, hsame⟩ | ⟨-, hkept⟩
    · exact (hquery query hsame.symm).mono hgrows
    · exact (h.queries m query hkept).mono hgrows
  · intro m progress' id hm hid
    rcases setQuery_eq_some hm with ⟨-, rfl⟩ | ⟨-, hkept⟩
    · exact (hclai id hid).1
    · exact h.claims m progress' id hkept hid
  · intro m m' progress₁ progress₂ id hm hm' hid hid'
    rcases setQuery_eq_some hm with ⟨rfl, rfl⟩ | ⟨-, hkept⟩
    · rcases setQuery_eq_some hm' with ⟨rfl, -⟩ | ⟨-, hkept'⟩
      · rfl
      · exact absurd hid' ((hclai id hid).2 m' progress₂ hkept')
    · rcases setQuery_eq_some hm' with ⟨rfl, rfl⟩ | ⟨-, hkept'⟩
      · exact absurd hid ((hclai id hid').2 m progress₁ hkept)
      · exact h.distinct m m' progress₁ progress₂ id hkept hkept' hid hid'
  · exact fun f hf => (h.forwards f hf).mono hgrows

theorem ProxyOk.claims_drawn {m : Nat}
    {id : String} (hm : p.queries m = some progress') (hid : progress'.claims = some id) :
    id ∈ p.drawn := by
  cases progress' with
  | answered answer => cases hid
  | running query =>
    have hok := (h.queries m query hm).stage
    unfold Progress.claims at hid
    simp only [] at hid
    split at hid
    · next route candidate status hstage =>
        rw [hstage] at hok
        cases hid
        exact hok.2.2.2
    · cases hid

theorem ProxyOk.setStore {store : Store}
    (hindex : SessionsIndexed hashSecret store p.now)
    (hrec : ∀ id session, store.sessions id = some session →
      ∃ c, p.created id = some c ∧ session.owner = hashSecret c.owner.text ∧
        session.route = hashSecret c.binding ∧ session.backendId = c.backendId) :
    ProxyOk hashSecret (p.setStore store) := by
  have hgrows : Grows p (p.setStore store) :=
    ⟨fun _ hmem => hmem, fun _ _ hc => hc, fun _ hmem => hmem⟩
  refine ⟨hindex, hrec, h.created, ?_, h.claims, h.distinct, ?_⟩
  · exact fun n query hquery => (h.queries n query hquery).mono hgrows
  · exact fun f hf => (h.forwards f hf).mono hgrows

theorem ProxyOk.forward {query : Query}
    {session : Option SessionRecord} {route target : ConnectorRoute}
    (howner : query.owner.text ∈ p.digested)
    (hses : SessionFor hashSecret p query (connectorBinding route) session)
    (htarg : TargetFor hashSecret p route target) :
    ProxyOk hashSecret (p.forward query session target) := by
  have hgrows : Grows p (p.forward query session target) :=
    ⟨fun _ hmem => hmem, fun _ _ hc => hc, fun _ hmem => hmem⟩
  refine ⟨h.index, h.recorded, h.created, ?_, h.claims, h.distinct, ?_⟩
  · exact fun n query hquery => (h.queries n query hquery).mono hgrows
  · intro f hf
    rcases List.mem_cons.mp hf with rfl | hf
    · intro id hid
      cases session with
      | none =>
        rw [show query.request.sessionId = none from hses] at hid
        cases hid
      | some session =>
        obtain ⟨hsame, c, hc, hc₁, hc₂, hown, hbinds, hback⟩ := hses
        obtain rfl := Option.mem_unique hid hsame
        refine ⟨c, hc, hc₁, hc₂, howner, htarg.1, hown, ?_, ?_⟩
        · rw [hbinds, htarg.2]
        · rw [hback]
          rfl
    · exact (h.forwards f hf).mono hgrows

end

/-! ### Steps -/

variable {tunnelOrigin : String → Option String} {props : String × String → GrantProps}
  {query : Query} {op : ProxyOp}

section

variable (h : ProxyOk hashSecret p) (hquery : QueryOk hashSecret p query)
include h hquery

theorem proxyOk_progress (hstage : ∀ query', progress = .running query' →
      ∃ stage, query' = { query with stage } ∧ StageOk hashSecret p query stage ∧
        ∀ route candidate status, stage ≠ .claiming route candidate status) :
    ProxyOk hashSecret (p.setQuery n progress) := by
  refine h.setQuery ?_ ?_
  · intro query' hrunni
    obtain ⟨stage, rfl, hok, -⟩ := hstage query' hrunni
    exact ⟨hquery.owner, hok⟩
  · intro id hid
    cases progress with
    | answered answer => cases hid
    | running query' =>
      obtain ⟨stage, rfl, -, hnot⟩ := hstage query' rfl
      cases stage with
      | claiming route candidate status => exact absurd rfl (hnot route candidate status)
      | _ => cases hid

theorem load_step (tokenCurrent : Bool) : ProxyOk hashSecret
      ((((p.store.routes query.token.grant.connectorId).map connectorBinding).elim p
        p.digest).setQuery n (loadRoute hashSecret p.store query tokenCurrent p.now)) := by
  cases hroute : p.store.routes query.token.grant.connectorId with
  | none =>
    refine proxyOk_progress h hquery fun query' hrunni => ?_
    obtain ⟨route, hload, -⟩ := loadRoute_running hrunni
    cases hroute.symm.trans hload
  | some route =>
    have hgrows : Grows p (p.digest (connectorBinding route)) :=
      ⟨fun _ hmem => List.mem_cons_of_mem _ hmem, fun _ _ hc => hc, fun _ hmem => hmem⟩
    refine proxyOk_progress (h.digest _) (hquery.mono hgrows) fun query' hrunni => ?_
    obtain ⟨loaded, hload, rfl⟩ := loadRoute_running hrunni
    obtain rfl := Option.mem_unique hroute hload
    refine ⟨_, rfl, ?_, ?_⟩
    · split_ifs with hid
      · exact List.mem_cons_self
      · exact ⟨List.mem_cons_self, by simpa [SessionFor] using hid⟩
    · intro _ _ _
      split_ifs <;> exact nofun

theorem lookup_step
    {route : ConnectorRoute} (hstage : query.stage = .looking route) : ProxyOk hashSecret
      (p.setQuery n (lookupSession hashSecret p.store query route p.now)) := by
  refine proxyOk_progress h hquery fun query' hrunni => ?_
  obtain ⟨id, session, hid, hstor, howner, hroute, rfl⟩ := lookupSession_running hrunni
  have hbind := hquery.stage
  rw [hstage] at hbind
  obtain ⟨c, hc, howner', hroute', hback⟩ := h.recorded id session hstor
  obtain rfl := h.index.own id session hstor
  obtain ⟨-, htext, htext'⟩ := h.created _ c hc
  refine ⟨_, rfl, ⟨hbind, hid, c, hc, htext, htext', ?_, ?_, hback.symm⟩, ?_⟩
  · rw [← howner', howner]
  · rw [← hroute', hroute]
  · exact nofun

theorem target_step {route : ConnectorRoute} {session : Option SessionRecord}
    (hstage : query.stage = .checking route session) (refusal : Option Answer)
    (tokenCurrent : Bool) : ProxyOk hashSecret (p.setQuery n
      (loadTarget hashSecret p.store query route session refusal tokenCurrent p.now)) := by
  have hok := hquery.stage
  rw [hstage] at hok
  refine proxyOk_progress h hquery fun query' hrunni => ?_
  rcases loadTarget_running hrunni with ⟨_, _, rfl⟩ | ⟨target, rfl⟩
  · exact ⟨_, rfl, trivial, nofun⟩
  · exact ⟨_, rfl, hok, nofun⟩

theorem authorize_step {route target : ConnectorRoute} {session : Option SessionRecord}
    (hstage : query.stage = .authorizing route session target) (tokenCurrent : Bool) :
    ProxyOk hashSecret ((p.digest (connectorBinding target)).setQuery n
      (authorizeTarget hashSecret p.store query route session target tokenCurrent p.now)) := by
  have hgrows : Grows p (p.digest (connectorBinding target)) :=
    ⟨fun _ hmem => List.mem_cons_of_mem _ hmem, fun _ _ hc => hc, fun _ hmem => hmem⟩
  have hlater := hquery.mono hgrows
  have hok := hlater.stage
  rw [hstage] at hok
  refine proxyOk_progress (h.digest _) hlater fun query' hrunni => ?_
  obtain ⟨hsame, hnext⟩ := authorizeTarget_running hrunni
  have htarg : TargetFor hashSecret (p.digest (connectorBinding target)) route target :=
    ⟨List.mem_cons_self, hsame⟩
  rcases hnext with ⟨record, rfl, rfl⟩ | ⟨rfl, rfl⟩
  all_goals exact ⟨_, rfl, ⟨hok.1, hok.2, htarg⟩, nofun⟩

theorem dispatch_step {route target : ConnectorRoute} {session : Option SessionRecord}
    (hstage : query.stage = .dispatching route session target) (tokenCurrent : Bool)
    (hstep : p.stepQuery hashSecret tunnelOrigin n query (.dispatch n tokenCurrent) = some q) :
    ProxyOk hashSecret q := by
  have hok := hquery.stage
  rw [hstage] at hok
  simp only [stepQuery, hstage] at hstep
  split at hstep
  · next query' hrunni =>
      cases hstep
      have hgrows : Grows p (p.forward query session target) :=
        ⟨fun _ hmem => hmem, fun _ _ hc => hc, fun _ hmem => hmem⟩
      have hlater := hquery.mono hgrows
      refine proxyOk_progress (h.forward hquery.owner hok.2.1 hok.2.2) hlater ?_
      intro query'' hsame
      obtain rfl := dispatchQuery_running hsame
      have hlater' := hlater.stage
      rw [hstage] at hlater'
      exact ⟨_, rfl, hlater', nofun⟩
  · next answer hansw =>
      cases hstep
      refine proxyOk_progress h hquery fun query' hrunni => ?_
      cases hansw.symm.trans hrunni

theorem receive_step {route target : ConnectorRoute} {session : Option SessionRecord}
    (hstage : query.stage = .waiting route session target) (upstream : Upstream) {id : String}
    (hfresh : id ∉ p.drawn) (tokenCurrent : Bool) :
    ProxyOk hashSecret ({ p with drawn := id :: p.drawn }.setQuery n
      (receiveResponse hashSecret p.store query route session target upstream id tokenCurrent
        p.now)) := by
  have hok := hquery.stage
  rw [hstage] at hok
  have hgrows : Grows p { p with drawn := id :: p.drawn } :=
    ⟨fun _ hmem => hmem, fun _ _ hc => hc, fun _ hmem => List.mem_cons_of_mem _ hmem⟩
  have hdrawn : ProxyOk hashSecret { p with drawn := id :: p.drawn } := by
    refine ⟨h.index, h.recorded, ?_, ?_, h.claims, h.distinct, ?_⟩
    · intro id' c hc
      obtain ⟨hmem, htexts⟩ := h.created id' c hc
      exact ⟨List.mem_cons_of_mem _ hmem, htexts⟩
    · exact fun m query hm => (h.queries m query hm).mono hgrows
    · exact fun f hf => (h.forwards f hf).mono hgrows
  generalize hprogress : receiveResponse hashSecret p.store query route session target upstream
    id tokenCurrent p.now = progress
  cases progress with
  | answered answer =>
    exact proxyOk_progress hdrawn (hquery.mono hgrows) fun _ hrunni => nomatch hrunni
  | running query' =>
    rcases receiveResponse_running hprogress with ⟨_, _, rfl⟩ | ⟨backendId, status, rfl⟩
    · refine proxyOk_progress hdrawn (hquery.mono hgrows) fun query'' hsame => ?_
      obtain rfl := Progress.running.inj hsame
      exact ⟨_, rfl, trivial, fun _ _ _ hnot => nomatch hnot⟩
    · refine hdrawn.setQuery ?_ ?_
      · intro query'' hsame
        obtain rfl := Progress.running.inj hsame
        exact ⟨hquery.owner, hok.1, rfl, rfl, List.mem_cons_self⟩
      · intro id' hid
        cases hid
        constructor
        · cases hc : p.created id with
          | none => exact hc
          | some c => exact absurd (h.created id c hc).1 hfresh
        · exact fun m progress' hm hid' => hfresh (h.claims_drawn hm hid')

end

section

variable (h : ProxyOk hashSecret p)
include h

theorem ProxyOk.create {route : ConnectorRoute} {candidate : SessionRecord} {store : Store}
    (hclaim : claimSession hashSecret p.store candidate p.now = (store, true))
    (howner : query.owner.text ∈ p.digested) (hroute : connectorBinding route ∈ p.digested)
    (howner' : candidate.owner = hashSecret query.owner.text)
    (hroute' : candidate.route = hashSecret (connectorBinding route))
    (hdrawn : candidate.id ∈ p.drawn) (hcreat : p.created candidate.id = none)
    (huncl : ∀ m progress, p.queries m = some progress → progress.claims ≠ some candidate.id) :
    ProxyOk hashSecret ((p.setStore store).create query route candidate) := by
  have hput : ∀ id, id ≠ candidate.id →
      ((p.setStore store).create query route candidate).created id = p.created id :=
    fun id hne => Table.put_other _ _ hne
  have hgrows : Grows p ((p.setStore store).create query route candidate) := by
    refine ⟨fun _ hmem => hmem, fun id c hc => ?_, fun _ hmem => hmem⟩
    rw [hput id fun hid => by simp [hid, hcreat] at hc]
    exact hc
  obtain ⟨-, -, hsess, -⟩ := claimSession_true hclaim
  constructor
  · exact h.index.claim hclaim
  · intro id session hses
    change store.sessions id = some session at hses
    rw [hsess] at hses
    by_cases hid : id = candidate.id
    · rw [hid, Table.put_same] at hses
      rw [hid, ← Option.some.inj hses]
      exact ⟨_, Table.put_same .., howner', hroute', rfl⟩
    · rw [Table.put_other _ _ hid] at hses
      rw [hput id hid]
      exact h.recorded id session hses
  · intro id c hc
    by_cases hid : id = candidate.id
    · change p.created.put candidate.id _ id = some c at hc
      rw [hid, Table.put_same] at hc
      rw [hid, ← Option.some.inj hc]
      exact ⟨hdrawn, howner, hroute⟩
    · rw [hput id hid] at hc
      exact h.created id c hc
  · exact fun m query hm => (h.queries m query hm).mono hgrows
  · intro m progress id hm hid
    rw [hput id fun hsame => huncl m progress hm (hsame ▸ hid)]
    exact h.claims m progress id hm hid
  · exact h.distinct
  · exact fun f hf => (h.forwards f hf).mono hgrows

theorem claim_step (hn : p.queries n = some (.running query))
    {route : ConnectorRoute} {candidate : SessionRecord} {status : Nat}
    (hstage : query.stage = .claiming route candidate status)
    (hstep : p.stepQuery hashSecret tunnelOrigin n query (.claim n) = some q) :
    ProxyOk hashSecret q := by
  have hquery := h.queries n query hn
  have hok := hquery.stage
  rw [hstage] at hok
  have hansw : ∀ answer, ProxyOk hashSecret (p.setQuery n (.answered answer)) :=
    fun answer => proxyOk_progress h hquery fun _ hrunni => nomatch hrunni
  simp only [stepQuery, hstage] at hstep
  split at hstep
  · next store hclaim =>
      cases hstep
      have hclai : (Progress.running query).claims = some candidate.id := by
        rw [Progress.claims, hstage]
      have hcreat : p.created candidate.id = none := h.claims n _ _ hn hclai
      refine (hansw ⟨status, some candidate.id⟩).create hclaim hquery.owner hok.1 hok.2.1
        hok.2.2.1 hok.2.2.2 hcreat ?_
      intro m progress hm hid
      rcases setQuery_eq_some hm with ⟨-, rfl⟩ | ⟨hne, hkept⟩
      · cases hid
      · exact hne (h.distinct m n _ _ _ hkept hn hid hclai)
  · next store hclaim =>
      cases hstep
      rw [claimSession_false hclaim]
      exact hansw ⟨502, none⟩

theorem close_step (hquery : QueryOk hashSecret p query)
    (session : SessionRecord) (answer : Answer) :
    ProxyOk hashSecret ((p.setStore (deactivateSession hashSecret p.store query session)).setQuery
      n (.answered answer)) := by
  have hstore : ProxyOk hashSecret
      (p.setStore (deactivateSession hashSecret p.store query session)) := by
    refine h.setStore (h.index.deactivate query session) ?_
    obtain ⟨-, hsame | ⟨current, hcur, hput⟩⟩ :=
      deactivateSession_sessions hashSecret p.store query session
    · rw [hsame]
      exact h.recorded
    · intro id other hother
      rw [hput] at hother
      by_cases hid : id = current.id
      · rw [hid, Table.put_same] at hother
        obtain ⟨c, hc⟩ := h.recorded _ current hcur
        rw [hid, h.index.own _ _ hcur, ← Option.some.inj hother]
        exact ⟨c, hc⟩
      · rw [Table.put_other _ _ hid] at hother
        exact h.recorded id other hother
  have hgrows : Grows p (p.setStore (deactivateSession hashSecret p.store query session)) :=
    ⟨fun _ hmem => hmem, fun _ _ hc => hc, fun _ hmem => hmem⟩
  exact proxyOk_progress hstore (hquery.mono hgrows) fun _ hrunni => nomatch hrunni

/-- One part of a request keeps the invariant. -/
theorem query_step (hop : op.query = some n) (hrunni : p.running n = some query)
    (hone : p.stepQuery hashSecret tunnelOrigin n query op = some q) : ProxyOk hashSecret q := by
  have hn : p.queries n = some (.running query) := by
    unfold running at hrunni
    split at hrunni
    · next hq => rw [hq, Option.some.inj hrunni]
    · cases hrunni
    · cases hrunni
  have hquery := h.queries n query hn
  cases op with
  | authority => cases hop
  | begin_ => cases hone
  | load m tokenCurrent =>
    simp only [stepQuery] at hone
    split at hone
    · cases hone
      exact load_step h hquery tokenCurrent
    · cases hone
  | lookup m =>
    simp only [stepQuery] at hone
    split at hone
    · next route hstage =>
        cases hone
        exact lookup_step h hquery hstage
    · cases hone
  | target m refusal tokenCurrent =>
    simp only [stepQuery] at hone
    split at hone
    · next route session hstage =>
        cases hone
        exact target_step h hquery hstage refusal tokenCurrent
    · cases hone
  | authorize m tokenCurrent =>
    simp only [stepQuery] at hone
    split at hone
    · next route session target hstage =>
        cases hone
        exact authorize_step h hquery hstage tokenCurrent
    · cases hone
  | recheck m tokenCurrent =>
    simp only [stepQuery] at hone
    split at hone
    · next route session target hstage =>
        cases hone
        have hok := hquery.stage
        rw [hstage] at hok
        refine proxyOk_progress h hquery fun query' hrunni => ?_
        rw [recheckSession_running hrunni]
        exact ⟨_, rfl, hok, nofun⟩
    · cases hone
  | dispatch m tokenCurrent =>
    obtain rfl : m = n := Option.some.inj hop
    have hwhich := hone
    simp only [stepQuery] at hwhich
    split at hwhich
    · next route session target hstage =>
        exact dispatch_step h hquery hstage tokenCurrent hone
    · cases hwhich
  | receive m upstream id tokenCurrent =>
    simp only [stepQuery] at hone
    split at hone
    · next route session target hstage =>
        split at hone
        · cases hone
        · next hfresh =>
            cases hone
            exact receive_step h hquery hstage upstream hfresh tokenCurrent
    · cases hone
  | claim m =>
    obtain rfl : m = n := Option.some.inj hop
    have hwhich := hone
    simp only [stepQuery] at hwhich
    split at hwhich
    · next route candidate status hstage => exact claim_step h hn hstage hone
    · cases hwhich
  | close m =>
    simp only [stepQuery] at hone
    split at hone
    · next session answer hstage =>
        cases hone
        exact close_step h hquery session answer
    · cases hone
  | abandon m answer =>
    cases hone
    exact proxyOk_progress h hquery fun _ hrunni => nomatch hrunni

theorem proxyOk_step
    (hstep : ProxyStep hashSecret tunnelOrigin props p op q) : ProxyOk hashSecret q := by
  obtain ⟨hprom, hone⟩ := hstep
  have hsplit : ∀ n, op.query = some n →
      (p.running n).bind (fun query => p.stepQuery hashSecret tunnelOrigin n query op) =
        some q → ProxyOk hashSecret q := by
    intro n hop hone
    obtain ⟨query, hrunni, hone⟩ := Option.bind_eq_some_iff.mp hone
    exact query_step h hop hrunni hone
  cases op with
  | authority op =>
    cases hone
    obtain ⟨hclock, now, hle, hswept⟩ := authority_sessions ⟨hprom, rfl⟩ h.index.own
    have hgrows : Grows p { p with
        authority := authorityStep hashSecret tunnelOrigin p.authority op } :=
      ⟨fun _ hmem => hmem, fun _ _ hc => hc, fun _ hmem => hmem⟩
    refine ⟨(h.index.sweep hle hswept).later hclock, ?_, h.created, ?_, h.claims, h.distinct, ?_⟩
    · intro id session hses
      rcases hswept.sessions id with hkept | ⟨hnone, -⟩
      · exact h.recorded id session (hkept ▸ hses)
      · cases hnone.symm.trans hses
    · exact fun n query hn => (h.queries n query hn).mono hgrows
    · exact fun f hf => (h.forwards f hf).mono hgrows
  | begin_ n request identity token =>
    simp only [step] at hone
    split_ifs at hone
    cases hone
    refine (h.digest _).setQuery ?_ ?_
    · intro query hrunni
      obtain rfl := beginQuery_running hrunni
      exact ⟨List.mem_cons_self, trivial⟩
    · intro id hid
      cases hprogress : beginQuery request identity token p.now with
      | answered answer => simp [hprogress, Progress.claims] at hid
      | running query =>
        obtain rfl := beginQuery_running hprogress
        simp [hprogress, Progress.claims] at hid
  | load n | lookup n | target n | authorize n | recheck n | dispatch n | receive n | claim n
  | close n | abandon n => exact hsplit n rfl hone

end

end Invariant

/-! ## Every run -/

section Runs

variable {hashSecret : String → String} {tunnelOrigin : String → Option String}
  {props : String × String → GrantProps} {p : Proxy}

def CollisionFree (hashSecret : String → String) (texts : List String) : Prop :=
  ∀ text ∈ texts, ∀ text' ∈ texts, hashSecret text = hashSecret text' → text = text'

theorem SessionOwner.text_injective {owner owner' : SessionOwner}
    (h : owner.text = owner'.text) : owner = owner' := by
  have hvalue := Json.stringify_injective h
  cases owner
  cases owner'
  simpa using hvalue

theorem proxyOk_of_reaches
    (h : Reaches (ProxyStep hashSecret tunnelOrigin props) .initial p) : ProxyOk hashSecret p :=
  h.invariant (fun _ _ _ hok hstep => proxyOk_step hok hstep) proxyOk_initial

/-- However the requests, the sweeps and the other operations of the authority interleave,
one session at most is usable for a route and a backend session, and whatever reaches a
backend under a session id was sent by the owner the session was created for, over a route
with the binding it was created on, to the backend session it was created with. -/
theorem session_ownership (h : Reaches (ProxyStep hashSecret tunnelOrigin props) .initial p)
    (hcollisions : CollisionFree hashSecret p.digested) :
    (∀ id id' session session', p.store.sessions id = some session →
      p.store.sessions id' = some session' → Usable session p.now → Usable session' p.now →
      session.route = session'.route → session.backendId = session'.backendId → id = id') ∧
    ∀ f ∈ p.forwarded, ∀ id, f.sessionId = some id → ∃ c, p.created id = some c ∧
      f.owner = c.owner ∧ connectorBinding f.route = c.binding ∧
        f.backendId = some c.backendId := by
  have hok := proxyOk_of_reaches h
  constructor
  · intro id id' session session' hid hid' huse huse' hroute hback
    exact hok.index.unique hid hid' huse huse' hroute hback
  · intro f hf id hid
    obtain ⟨c, hc, howner, hbind, howner', hbind', hown, hbinds, hback⟩ :=
      hok.forwards f hf id hid
    have htext := hcollisions _ howner _ howner' hown
    have htext' := hcollisions _ hbind _ hbind' hbinds
    exact ⟨c, hc, SessionOwner.text_injective htext.symm, htext'.symm, hback⟩

end Runs

/-- `hashSecret` on the texts of the run below. -/
def sessionDigest (text : String) : String :=
  let device := "dddddddddddddddddddddddddddddddd"
  if text = (SessionOwner.mk "gggggggggggggggg" "client" device device "work" 0).text then
    "f58412300b7d716f333a1d1c61a7c367031ceaf959f13156b8801fef89b8dec5"
  else if text = "[\"" ++ device ++
      "\",\"https://a.trycloudflare.com\",\"bbbbbbbbbbbbbbbbbbbbbbbbbbbbbbbb\",0]" then
    "ba92cea5952b92398f937e7815dc615608deee49951f5eb7b919640343046e07"
  else if text = ownerText "client" device "work" 0 then
    "71afcb369d4e2318cd239a67a5b42e33229f10d960d9040664957157bc3bcaba"
  else if text = "client" then
    "948fe603f61dc036b5c596dc09fe3ce3f3d30dc90f024c85f3c82db2ccab679d"
  else tokenDigest text

/-- A session that is opened by one request and used by the next. -/
theorem session_ownership_resumed : let id := "ssssssssssssssssssssssssssssssss"
    let device := "dddddddddddddddddddddddddddddddd"
    ∃ (p : Proxy) (f : Forward) (c : Creation), f ∈ p.forwarded ∧ f.sessionId = some id ∧
      p.created id = some c ∧ f.owner = c.owner ∧ connectorBinding f.route = c.binding ∧
      f.backendId = some c.backendId ∧ c.owner.connectorId = device := by
  intro id device
  let identity : SessionIdentity := ⟨"gggggggggggggggg", "client"⟩
  let grant : QueryGrant := ⟨device, device, "work", 0⟩
  let token : QueryToken := ⟨grant, ["wenlan:query"], 1000⟩
  let props : String × String → GrantProps := fun _ => ⟨"client", "authorization"⟩
  let enroll : ProxyOp := .authority (.device (.enroll
    ⟨⟨"bbbbbbbbbbbbbbbbbbbbbbbbbbbbbbbb", "work"⟩, "https://a.trycloudflare.com"⟩ true device
    "tttttttttttttttttttttttttttttttt" 0))
  let consent : ProxyOp := .authority (.replace device "client" "authorization" none)
  let claim : ProxyOp := .authority (.claim identity grant "authorization" 0)
  let queries : List ProxyOp :=
    [.begin_ 0 ⟨.post, none, some true⟩ identity token, .load 0 true, .target 0 none true,
      .authorize 0 true, .dispatch 0 true,
      .receive 0 (.status 200 (some "backend-session")) id true, .claim 0,
      .begin_ 1 ⟨.post, some id, some false⟩ identity token, .load 1 true, .lookup 1,
      .target 1 none true, .authorize 1 true, .recheck 1 true, .dispatch 1 true]
  let step := step sessionDigest some
  let apply : Proxy → ProxyOp → Proxy := fun p op => (step p op).getD p
  let consented := apply (apply .initial enroll) consent
  let granted := apply consented claim
  let seen : Proxy → Option (String × String × Bool) := fun p =>
    match p.forwarded with
    | f :: _ => f.sessionId.map fun id => (id, f.owner.connectorId,
        p.digested.all fun text => p.digested.all fun text' =>
          sessionDigest text != sessionDigest text' || text == text')
    | [] => none
  have hseen : (queries.foldlM step granted).bind seen = some (id, device, true) := by
    decide +kernel
  obtain ⟨p, hp, hf⟩ := Option.bind_eq_some_iff.mp hseen
  have hrun : Run (ProxyStep sessionDigest some props) granted queries p := by
    have hall : ∀ op ∈ queries, (ProxyOp.query op).isSome = true := by decide
    refine .of_foldlM ?_ hall hp
    intro q op r hop hone
    refine ⟨?_, hone⟩
    cases op with
    | authority => cases hop
    | _ => trivial
  have henr : ProxyStep sessionDigest some props .initial enroll (apply .initial enroll) :=
    ⟨trivial, rfl⟩
  have hcons : ProxyStep sessionDigest some props (apply .initial enroll) consent consented :=
    ⟨List.not_mem_nil, rfl⟩
  have hclaim : ProxyStep sessionDigest some props consented claim granted :=
    ⟨⟨Nat.le_refl _, rfl⟩, rfl⟩
  have hreach : Reaches (ProxyStep sessionDigest some props) .initial p :=
    ⟨_, .cons henr (.cons hcons (.cons hclaim hrun))⟩
  cases hforw : p.forwarded with
  | nil => simp [seen, hforw] at hf
  | cons f rest =>
    simp only [seen, hforw, Option.map_eq_some_iff, Prod.mk.injEq] at hf
    obtain ⟨id', hid, rfl, hdev, hcollisions⟩ := hf
    have hfree : CollisionFree sessionDigest p.digested := by
      intro text hmem text' hmem' hsame
      have hall := List.all_eq_true.mp (List.all_eq_true.mp hcollisions text hmem) text' hmem'
      simpa [hsame] using hall
    have hmem : f ∈ p.forwarded := hforw ▸ List.mem_cons_self
    obtain ⟨c, hc, howner, hbind, hback⟩ :=
      (session_ownership hreach hfree).2 f hmem _ hid
    exact ⟨p, f, c, hmem, hid, hc, howner, hbind, hback, howner ▸ hdev⟩

end Wenlan.Relay
