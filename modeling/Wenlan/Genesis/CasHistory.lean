import Mathlib.Data.String.Basic
import Wenlan.Genesis.CasGate

/-!
# Histories of prepared candidates

Where every proposal that is prepared has the fingerprint of its candidate, the claims of a
candidate stay on the roots that its digest was taken over, and the gates hold after each prepare.
-/

namespace Wenlan.Genesis

open Support (KeyTable)
open Support.Transition
open Support.Fallible (bind_ok)

namespace World

variable {ids : Identities} {space candidateId : String} {coverageEpoch : Int}
  {proposal : SignalProposal} {candidate : CandidateRow} {w w' t : World}

/-! ## Steps -/

/-- A proposal of a shadow turn, a dry run, a move of another writer, or a change of what is
neither a candidate nor a claim. -/
inductive WorldMove where
  | prepare (space : String) (coverageEpoch : Int) (proposal : SignalProposal)
  | finalize (candidateId : String)
  | other (move : Move)
  | surroundings

def WorldStep (ids : Identities) (digest : Digest)
    (later : CasGate → World → String → CandidateRow → CasEnvelope → Bool) (w : World)
    (move : WorldMove) (w' : World) : Prop :=
  match move with
  | .prepare space coverageEpoch proposal =>
    ∃ turn, w.prepareOne ids space coverageEpoch proposal = .ok (w', turn)
  | .finalize candidateId => ∃ answer, w.dryRunFinalize ids candidateId later = .ok (w', answer)
  | .other move => (∀ candidateId rootIds, move ≠ .prepare candidateId rootIds) ∧
      Db.Step digest w.db move w'.db
  | .surroundings => w'.db.claims = w.db.claims ∧ w'.db.candidates = w.db.candidates

/-- The proposal has the fingerprint that its candidate was observed with, and its roots are
known. -/
structure Faithful (ids : Identities) (space : String) (coverageEpoch : Int)
    (proposal : SignalProposal) (w : World) : Prop where
  same : w.SameFingerprint ids space coverageEpoch proposal
  covered : w.Covered space coverageEpoch
  nonempty : proposal.rootIds ≠ []
  known : ∀ rootId ∈ proposal.rootIds, rootId ∈ w.db.roots

def Keeping (ids : Identities) (w : World) : WorldMove → Prop
  | .prepare space coverageEpoch proposal => w.Faithful ids space coverageEpoch proposal
  | _ => True

/-- Every claim is on a root that the digest of its candidate was taken over. -/
def Anchored (ids : Identities) (w : World) : Prop :=
  ∀ candidateId rootId, w.db.Claims candidateId rootId →
    ∃ row roots status, w.db.candidates.lookup candidateId = some row ∧
      row.activeRootDigest = ids.activeRootDigest roots ∧ (rootId, status) ∈ roots

theorem Anchored.transits {claimed : ClaimKey → Prop} (hanch : w.Anchored ids)
    (h : Db.Transits claimed w.db w'.db)
    (hclai : ∀ candidateId rootId, claimed ⟨candidateId, rootId⟩ →
      ∃ row roots status, w'.db.candidates.lookup candidateId = some row ∧
        row.activeRootDigest = ids.activeRootDigest roots ∧ (rootId, status) ∈ roots) :
    w'.Anchored ids := by
  intro candidateId rootId hclaims
  obtain ⟨claim, hclaim⟩ := hclaims
  rcases h.claims _ claim hclaim with ⟨old, hold, -⟩ | hnew
  · obtain ⟨row, roots, status, hrow, hdigest, hroot⟩ := hanch candidateId rootId ⟨old, hold⟩
    obtain ⟨row', hrow', hdigest', -⟩ := h.candidates candidateId row hrow
    exact ⟨row', roots, status, hrow', hdigest'.trans hdigest, hroot⟩
  · exact hclai candidateId rootId hnew

theorem Anchored.keeps (hanch : w.Anchored ids)
    (h : Db.Transits (fun _ => False) w.db w'.db) : w'.Anchored ids :=
  hanch.transits h fun _ _ hnone => hnone.elim

theorem prepareOne_db {turn : Option GenesisTurn}
    (h : w.prepareOne ids space coverageEpoch proposal = .ok (w', turn)) :
    w.db.prepareOne (w.proposalOf ids space coverageEpoch proposal) = .ok (w'.db, turn) := by
  obtain ⟨⟨db, turn'⟩, hone, h⟩ := bind_ok h
  dsimp only at h
  split at h
  all_goals
    cases h
    exact hone

theorem anchored_prepareOne {turn : Option GenesisTurn} (hanch : w.Anchored ids)
    (hsame : w.SameFingerprint ids space coverageEpoch proposal)
    (h : w.prepareOne ids space coverageEpoch proposal = .ok (w', turn)) : w'.Anchored ids := by
  have hone := prepareOne_db h
  by_cases hadmitted : w.db.Admitted (w.proposalOf ids space coverageEpoch proposal)
  · obtain ⟨observed, hread, hto, hfrom⟩ := Db.prepareOne_admitted hadmitted hone
    obtain ⟨row, hrow, hdigest, -⟩ := hfrom.candidates _ _ hread
    obtain ⟨-, -, -, -, hstor⟩ := readFor_fields hsame
    refine hanch.transits (hto.trans hfrom) ?_
    rintro candidateId rootId ⟨hown, hroot⟩
    refine ⟨row, w.db.rootStatus proposal.rootIds, w.db.statusOf rootId, ?_,
      hdigest.trans hstor, Db.mem_rootStatus.mpr ⟨hroot, rfl⟩⟩
    dsimp only at hown
    rw [hown]
    exact hrow
  · have hunch := Db.prepareOne_not_admitted hadmitted hone
    unfold Anchored
    rw [hunch]
    exact hanch

theorem transits_dryRunFinalize
    {later : CasGate → World → String → CandidateRow → CasEnvelope → Bool}
    {answer : Finalization} (h : w.dryRunFinalize ids candidateId later = .ok (w', answer)) :
    Db.Transits (fun _ => False) w.db w'.db := by
  unfold dryRunFinalize at h
  cases heligible : w.eligible candidateId with
  | none =>
    rw [heligible] at h
    cases h
    exact Db.transits_of_eq rfl rfl
  | some found =>
    obtain ⟨candidate, envelope⟩ := found
    rw [heligible] at h
    dsimp only at h
    cases href : w.evaluateGates ids candidateId candidate later envelope with
    | none =>
      rw [href] at h
      cases h
      exact Db.transits_of_eq rfl rfl
    | some gate =>
      rw [href] at h
      obtain ⟨db, hretry, h⟩ := bind_ok h
      cases h
      refine Db.Transits.trans ?_ (Db.transits_retryWait hretry)
      exact Db.transits_of_eq rfl rfl

variable {move : WorldMove}

theorem anchored_step {digest : Digest}
    {later : CasGate → World → String → CandidateRow → CasEnvelope → Bool}
    (hkeep : w.Keeping ids move) (hanch : w.Anchored ids)
    (h : WorldStep ids digest later w move w') : w'.Anchored ids := by
  cases move with
  | prepare space coverageEpoch proposal =>
    obtain ⟨turn, hturn⟩ := h
    exact anchored_prepareOne hanch hkeep.same hturn
  | finalize candidateId =>
    obtain ⟨answer, hansw⟩ := h
    exact hanch.keeps (transits_dryRunFinalize hansw)
  | other move => exact hanch.keeps (Db.transits_move h.1 h.2)
  | surroundings => exact hanch.keeps (Db.transits_of_eq h.1 h.2)

theorem Faithful.comparable (hdigest : ∀ roots roots' : List (String × String),
      ids.activeRootDigest roots = ids.activeRootDigest roots' ↔
        ∀ root, root ∈ roots ↔ root ∈ roots')
    (hanch : w.Anchored ids) (h : w.Faithful ids space coverageEpoch proposal) :
    Comparable space coverageEpoch (ids.candidateId proposal.slotId coverageEpoch) proposal w where
  covered := h.covered
  nonempty := h.nonempty
  kept rootId hclaims := by
    obtain ⟨row, roots, status, hrow, hstor, hroot⟩ := hanch _ rootId hclaims
    obtain ⟨-, -, -, -, hfing⟩ := h.same row hrow
    have hmem := ((hdigest _ _).mp (hstor.symm.trans hfing) (rootId, status)).mp hroot
    exact (Db.mem_rootStatus.mp hmem).1
  known rootId hmem := .inl (h.known rootId hmem)

/-- A candidate that was prepared under its own fingerprint, and nothing changed since: the five
gates hold exactly where the prepare was comparable.  In a history in which every proposal is
faithful they hold after every prepare. -/
theorem gates_hold_after_prepare (ids : Identities) (digest : Digest)
    (later : CasGate → World → String → CandidateRow → CasEnvelope → Bool)
    (hdigest : ∀ roots roots' : List (String × String),
      ids.activeRootDigest roots = ids.activeRootDigest roots' ↔
        ∀ root, root ∈ roots ↔ root ∈ roots') :
    (∀ space coverageEpoch proposal candidateId (w w' t : World),
      w.SameFingerprint ids space coverageEpoch proposal →
      w.prepareOne ids space coverageEpoch proposal = .ok (w', some (.prepared candidateId)) →
      Quiet w' t → t.LeaseLive space →
      (t.gatesHold ids candidateId = true ↔
        Comparable space coverageEpoch candidateId proposal w)) ∧
    ∀ start w : World, start.db.Fresh →
      Reaches (Restrict (WorldStep ids digest later) (Keeping ids)) start w →
      ∀ space coverageEpoch proposal candidateId (w' t : World),
        w.Faithful ids space coverageEpoch proposal →
        w.prepareOne ids space coverageEpoch proposal = .ok (w', some (.prepared candidateId)) →
        Quiet w' t → t.LeaseLive space → t.gatesHold ids candidateId = true := by
  constructor
  · intro space coverageEpoch proposal candidateId w w' t hsame h hquiet hlive
    exact gatesHold_iff hdigest hsame h hquiet hlive
  · intro start w hfresh hreach space coverageEpoch proposal candidateId w' t hfaithful h hquiet
      hlive
    have hstart : start.Anchored ids := by
      intro candidateId rootId hclaims
      obtain ⟨claim, hclaim⟩ := hclaims
      rw [hfresh.claims] at hclaim
      cases hclaim
    have hanch : w.Anchored ids :=
      hreach.invariant (fun s move s' hs hstep => anchored_step hstep.1 hs hstep.2) hstart
    obtain ⟨hown, -⟩ := Db.prepareOne_stores (prepareOne_db h)
    rw [gatesHold_iff hdigest hfaithful.same h hquiet hlive, hown]
    exact hfaithful.comparable hdigest hanch

/-- Letters with a mark before each and another at the end. -/
def spell : List Char → List Char
  | [] => ['.']
  | c :: cs => '+' :: c :: spell cs

theorem spell_append_inj {text other rest rest' : List Char}
    (h : spell text ++ rest = spell other ++ rest') : text = other ∧ rest = rest' := by
  induction text generalizing other with
  | nil =>
    cases other with
    | nil => exact ⟨rfl, (List.cons.inj h).2⟩
    | cons c other => cases (List.cons.inj h).1
  | cons c text ih =>
    cases other with
    | nil => cases (List.cons.inj h).1
    | cons c' other =>
      obtain ⟨hchar, hrest⟩ := List.cons.inj (List.cons.inj h).2
      obtain ⟨htext, hrest⟩ := ih hrest
      exact ⟨by rw [hchar, htext], hrest⟩

def rootLe (left right : String × String) : Prop := toLex left ≤ toLex right

instance : DecidableRel rootLe := fun left right =>
  inferInstanceAs (Decidable (toLex left ≤ toLex right))

instance : Std.Total rootLe := ⟨fun _ _ => le_total _ _⟩

instance : IsTrans (String × String) rootLe := ⟨fun _ _ _ => le_trans⟩

def spellRoots (roots : List (String × String)) : List Char :=
  roots.flatMap fun root => spell root.1.toList ++ spell root.2.toList

def plainRootDigest (roots : List (String × String)) : String :=
  String.ofList (spellRoots (Identity.sortedDistinct rootLe roots))

theorem spellRoots_inj {roots roots' : List (String × String)}
    (h : spellRoots roots = spellRoots roots') : roots = roots' := by
  have hne : ∀ (root : String × String) (rest : List (String × String)),
      spellRoots (root :: rest) ≠ [] := by
    intro root rest hnil
    cases hchars : root.1.toList with
    | nil => simp [spellRoots, hchars, spell] at hnil
    | cons c cs => simp [spellRoots, hchars, spell] at hnil
  induction roots generalizing roots' with
  | nil =>
    cases roots' with
    | nil => rfl
    | cons root' roots' => exact absurd h.symm (hne root' roots')
  | cons root roots ih =>
    cases roots' with
    | nil => exact absurd h (hne root roots)
    | cons root' roots' =>
      rw [spellRoots, spellRoots, List.flatMap_cons, List.flatMap_cons, List.append_assoc,
        List.append_assoc] at h
      obtain ⟨hid, h⟩ := spell_append_inj h
      obtain ⟨hstat, h⟩ := spell_append_inj h
      rw [ih h, Prod.ext (String.toList_inj.mp hid) (String.toList_inj.mp hstat)]

theorem plainRootDigest_eq_iff (roots roots' : List (String × String)) :
    plainRootDigest roots = plainRootDigest roots' ↔ ∀ root, root ∈ roots ↔ root ∈ roots' := by
  have hsort : Identity.sortedDistinct rootLe roots = Identity.sortedDistinct rootLe roots' ↔
      ∀ root, root ∈ roots ↔ root ∈ roots' :=
    Identity.sortedDistinct_eq_iff fun _ _ h h' => toLex.injective (le_antisymm h h')
  rw [← hsort]
  constructor
  · intro h
    exact spellRoots_inj (String.ofList_injective h)
  · intro h
    unfold plainRootDigest
    rw [h]

/-! ### A slot whose roots change -/

def plainIdentities : Identities := ⟨fun slotId _ => slotId, plainRootDigest⟩

/-- Nothing observed yet in a space with two roots of two groups. -/
def freshWorld : World where
  db :=
    { leases := ∅, candidates := ∅, claims := ∅, coverage := ∅, frontier := ∅, cards := ∅,
      suppressions := ∅, quarantines := ∅
      roots := ((∅ : KeyTable String ProvenanceRoot).insert "r1" ⟨"g", "active", "document"⟩).insert
        "r3" ⟨"h", "active", "document"⟩
      edges := [], clock := ⟨1000, fun _ => 0⟩, tokens := fun _ => "token" }
  spaces := (∅ : KeyTable String String).insert "work" "space"
  coverageStates := (∅ : KeyTable String CoverageState).insert "space" ⟨1, .active⟩
  graph := ∅
  envelopes := ∅

def slotOver (rootIds : List String) : SignalProposal := ⟨"c", "page", .evidenceCluster, rootIds⟩

def laterHold (_ : CasGate) (_ : World) (_ : String) (_ : CandidateRow) (_ : CasEnvelope) : Bool :=
  true

theorem freshWorld_fresh : freshWorld.db.Fresh := ⟨rfl, rfl, rfl, rfl, rfl, rfl⟩

theorem freshWorld_faithful : freshWorld.Faithful plainIdentities "work" 1 (slotOver ["r1"]) where
  same row hrow := by cases hrow
  covered := ⟨"space", ⟨1, .active⟩, rfl, rfl, rfl, rfl⟩
  nonempty := by decide
  known := by decide

theorem gates_hold_after_prepare_fresh : ∃ w',
    freshWorld.prepareOne plainIdentities "work" 1 (slotOver ["r1"]) =
      .ok (w', some (.prepared "c")) ∧ (w'.gatesHold plainIdentities "c" = true ↔
      Comparable "work" 1 "c" (slotOver ["r1"]) freshWorld) ∧
    w'.gatesHold plainIdentities "c" = true := by
  have hrun : (freshWorld.prepareOne plainIdentities "work" 1 (slotOver ["r1"])).toOption.any
      (fun result => decide (result.2 = some (.prepared "c")) &&
        (result.1.db.leases.lookup ⟨LeasePhase.genesis.asStr, "work",
          result.1.groupingGeneration "work"⟩).all fun lease =>
            decide (result.1.db.tick.now < lease.expiresAt)) = true := by
    decide +kernel
  obtain ⟨⟨w', turn⟩, hturn, hholds⟩ := (Option.any_eq_true _ _).mp hrun
  rw [Bool.and_eq_true, decide_eq_true_eq] at hholds
  obtain ⟨rfl, hlease⟩ := hholds
  have hok := Db.toOption_eq_some hturn
  have hlive : w'.LeaseLive "work" := fun lease hrow =>
    of_decide_eq_true ((Option.all_eq_true _ _).mp hlease lease hrow)
  have hquiet : Quiet w' w' := ⟨rfl, rfl, rfl, rfl, rfl, rfl, rfl, rfl⟩
  refine ⟨w', hok, ?_, ?_⟩
  · exact (gates_hold_after_prepare plainIdentities Db.plainDigest laterHold
      plainRootDigest_eq_iff).1 _ _ _ _ _ _ _ freshWorld_faithful.same hok hquiet hlive
  · exact (gates_hold_after_prepare plainIdentities Db.plainDigest laterHold
      plainRootDigest_eq_iff).2 _ _ freshWorld_fresh (.refl _) _ _ _ _ _ _ freshWorld_faithful hok
      hquiet hlive

def next (w : World) : WorldMove → Option World
  | .prepare space coverageEpoch proposal =>
    (w.prepareOne plainIdentities space coverageEpoch proposal).toOption.map (·.1)
  | .finalize candidateId =>
    (w.dryRunFinalize plainIdentities candidateId laterHold).toOption.map (·.1)
  | .other (.stale candidateId reason) =>
    (w.db.markStale candidateId reason).toOption.map fun db => { w with db := db }
  | _ => none

theorem next_step (h : w.next move = some w') :
    WorldStep plainIdentities Db.plainDigest laterHold w move w' := by
  unfold next at h
  split at h
  · obtain ⟨⟨next, turn⟩, hturn, rfl⟩ := Option.map_eq_some_iff.mp h
    exact ⟨turn, Db.toOption_eq_some hturn⟩
  · obtain ⟨⟨next, answer⟩, hansw, rfl⟩ := Option.map_eq_some_iff.mp h
    exact ⟨answer, Db.toOption_eq_some hansw⟩
  · obtain ⟨db, hstale, rfl⟩ := Option.map_eq_some_iff.mp h
    exact ⟨by simp, trivial, hstale⟩
  · cases h

/-- The slot is prepared over `r1`, then over both roots, and then over `r1` again. -/
def changingSlot : List WorldMove :=
  [.prepare "work" 1 (slotOver ["r1"]), .finalize "c", .other (.stale "c" .inputMoved),
    .prepare "work" 1 (slotOver ["r1", "r3"]), .finalize "c", .other (.stale "c" .inputMoved)]

/-- The candidate is back under its first fingerprint, and is prepared, but a gate fails. -/
def refusedAgain (w : World) : Bool :=
  (w.db.candidates.lookup "c").all (fun row => decide (row.space = "work" ∧
    row.signalKind = .evidenceCluster ∧ row.coverageEpoch = 1 ∧
    row.inputGeneration = w.groupingGeneration "work" ∧
    row.activeRootDigest = plainRootDigest (w.db.rootStatus ["r1"]))) &&
  (w.prepareOne plainIdentities "work" 1 (slotOver ["r1"])).toOption.any fun result =>
    decide (result.2 = some (.prepared "c")) && !result.1.gatesHold plainIdentities "c" &&
      (result.1.db.leases.lookup ⟨LeasePhase.genesis.asStr, "work",
        result.1.groupingGeneration "work"⟩).all fun lease =>
          decide (result.1.db.tick.now < lease.expiresAt)

/-- The released claim on the other root stays behind, and the gates read it. -/
theorem released_claim_refuses : ¬ ∀ start w : World, start.db.Fresh →
    Reaches (WorldStep plainIdentities Db.plainDigest laterHold) start w →
    ∀ space coverageEpoch proposal candidateId (w' t : World),
      w.SameFingerprint plainIdentities space coverageEpoch proposal →
      w.prepareOne plainIdentities space coverageEpoch proposal =
        .ok (w', some (.prepared candidateId)) →
      Quiet w' t → t.LeaseLive space → t.gatesHold plainIdentities candidateId = true := by
  intro hsound
  have hrun : (changingSlot.foldlM next freshWorld).any
      (fun w => decide (w.refusedAgain = true)) = true := by
    decide +kernel
  obtain ⟨w, hreach, href⟩ := Run.of_foldlM_any (fun _ _ _ => next_step) hrun
  rw [refusedAgain, Bool.and_eq_true] at href
  obtain ⟨hsame, hprep⟩ := href
  obtain ⟨⟨w', turn⟩, hturn, hholds⟩ := (Option.any_eq_true _ _).mp hprep
  rw [Bool.and_eq_true, Bool.and_eq_true, decide_eq_true_eq, Bool.not_eq_true'] at hholds
  obtain ⟨⟨rfl, hgates⟩, hlease⟩ := hholds
  have hfing : w.SameFingerprint plainIdentities "work" 1 (slotOver ["r1"]) :=
    fun row hrow => of_decide_eq_true ((Option.all_eq_true _ _).mp hsame row hrow)
  have hlive : w'.LeaseLive "work" := fun lease hrow =>
    of_decide_eq_true ((Option.all_eq_true _ _).mp hlease lease hrow)
  have hheld := hsound freshWorld w freshWorld_fresh ⟨_, hreach⟩ "work" 1 (slotOver ["r1"]) "c" w'
    w' hfing (Db.toOption_eq_some hturn) ⟨rfl, rfl, rfl, rfl, rfl, rfl, rfl, rfl⟩ hlive
  dsimp only at hgates
  rw [hheld] at hgates
  cases hgates

end World

end Wenlan.Genesis
