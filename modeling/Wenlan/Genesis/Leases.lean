import Wenlan.Support.KeyTable
import Wenlan.Support.Transition

/-!
# The lease registry

`m6/leases.rs` over `grouping_leases`, which is shared with the phases of other subsystems: the
key of a row is the operation it leases, a phase, a space and an input generation.  Times are
seconds, and every statement reads the clock for itself.
-/

namespace Wenlan.Genesis

open Support (KeyTable)

inductive LeasePhase where
  | genesis
  | frontier

namespace LeasePhase

def asStr : LeasePhase → String
  | .genesis => "genesis"
  | .frontier => "frontier"

/-- Every phase M6 owns, and the only rows it may reap. -/
def all : List LeasePhase := [.genesis, .frontier]

def ttlSeconds : LeasePhase → Int
  | .genesis => 900
  | .frontier => 120

end LeasePhase

/-- The primary key of `grouping_leases`. -/
structure LeaseKey where
  phase : String
  space : String
  inputGeneration : Int
  deriving DecidableEq

structure Lease where
  token : String
  expiresAt : Int
  attempt : Int

abbrev Leases := KeyTable LeaseKey Lease

namespace Leases

/-- The rows that the reap of `acquire` deletes: expired, or of a superseded generation. -/
def stale (key : LeaseKey) (now : Int) (other : LeaseKey) (lease : Lease) : Bool :=
  other.phase == key.phase && other.space == key.space &&
    (decide (lease.expiresAt ≤ now) || other.inputGeneration != key.inputGeneration)

/-- `acquire`: the reap at one time and the insert at another, with a fresh token.  No token
comes back where another holder has the operation. -/
def acquire (phase : LeasePhase) (space : String) (inputGeneration attempt : Int)
    (token : String) (reapAt insertAt : Int) (leases : Leases) : Option String × Leases :=
  let key : LeaseKey := ⟨phase.asStr, space, inputGeneration⟩
  let reaped := KeyTable.deleteWhere (stale key reapAt) leases
  if key ∈ reaped then (none, reaped)
  else (some token, reaped.insert key ⟨token, insertAt + phase.ttlSeconds, attempt⟩)

def holds (leases : Leases) (key : LeaseKey) (token : String) (now : Int) : Bool :=
  (leases.lookup key).any fun lease => lease.token == token && decide (now < lease.expiresAt)

def owns (phase : LeasePhase) (space : String) (inputGeneration : Int) (token : String)
    (now : Int) (leases : Leases) : Bool :=
  leases.holds ⟨phase.asStr, space, inputGeneration⟩ token now

/-- `release`, which deletes the row of the operation if it has this token. -/
def release (phase : LeasePhase) (space : String) (inputGeneration : Int) (token : String)
    (leases : Leases) : Leases :=
  KeyTable.deleteWhere (fun key lease =>
    key == (⟨phase.asStr, space, inputGeneration⟩ : LeaseKey) && lease.token == token) leases

/-- The row is one that the startup reap deletes. -/
def expiredM6 (now : Int) (key : LeaseKey) (lease : Lease) : Bool :=
  decide (lease.expiresAt ≤ now) && LeasePhase.all.any fun phase => phase.asStr == key.phase

def reapExpiredM6Phases (now : Int) (leases : Leases) : Leases :=
  KeyTable.deleteWhere (expiredM6 now) leases

variable {leases : Leases} {key other : LeaseKey} {token : String} {now : Int} {lease : Lease}

theorem holds_iff : leases.holds key token now ↔
    ∃ lease, leases.lookup key = some lease ∧ lease.token = token ∧ now < lease.expiresAt := by
  simp [holds, Option.any_eq_true]

theorem holder_unique {token' : String} (h : leases.holds key token now)
    (h' : leases.holds key token' now) : token = token' := by
  obtain ⟨lease, hrow, rfl, -⟩ := holds_iff.mp h
  obtain ⟨lease', hrow', rfl, -⟩ := holds_iff.mp h'
  rw [hrow] at hrow'
  cases hrow'
  rfl

section Acquire

variable {phase : LeasePhase} {space : String} {inputGeneration attempt reapAt insertAt : Int}

theorem stale_iff : stale key now other lease ↔
    other.phase = key.phase ∧ other.space = key.space ∧
      (lease.expiresAt ≤ now ∨ other.inputGeneration ≠ key.inputGeneration) := by
  simp [stale, and_assoc]

theorem stale_eq_false (hkeep : other.phase ≠ key.phase ∨ other.space ≠ key.space ∨
    (other.inputGeneration = key.inputGeneration ∧ now < lease.expiresAt)) :
    stale key now other lease = false := by
  rw [Bool.eq_false_iff]
  intro hstale
  obtain ⟨hphase, hspace, hdoom⟩ := stale_iff.mp hstale
  rcases hkeep with hother | hother | ⟨hgen, hlive⟩
  · exact hother hphase
  · exact hother hspace
  · rcases hdoom with hexp | hmoved
    · omega
    · exact hmoved hgen

theorem lookup_acquire {got : Option String} {after : Leases}
    (h : acquire phase space inputGeneration attempt token reapAt insertAt leases = (got, after))
    (hrow : after.lookup other = some lease) : leases.lookup other = some lease ∨
      (other = ⟨phase.asStr, space, inputGeneration⟩ ∧ lease.token = token ∧ got = some token) := by
  unfold acquire at h
  dsimp only at h
  split_ifs at h with hmem
  · cases h
    rw [KeyTable.lookup_deleteWhere, Option.filter_eq_some_iff] at hrow
    exact .inl hrow.1
  · cases h
    by_cases hsame : other = ⟨phase.asStr, space, inputGeneration⟩
    · subst hsame
      rw [AList.lookup_insert] at hrow
      cases hrow
      exact .inr ⟨rfl, rfl, rfl⟩
    · rw [AList.lookup_insert_ne hsame, KeyTable.lookup_deleteWhere,
        Option.filter_eq_some_iff] at hrow
      exact .inl hrow.1

theorem acquire_keeps (hrow : leases.lookup other = some lease)
    (hkeep : other.phase ≠ phase.asStr ∨ other.space ≠ space ∨
      (other.inputGeneration = inputGeneration ∧ reapAt < lease.expiresAt)) :
    (acquire phase space inputGeneration attempt token reapAt insertAt leases).2.lookup other =
      some lease := by
  have hreap : (KeyTable.deleteWhere
      (stale ⟨phase.asStr, space, inputGeneration⟩ reapAt) leases).lookup other = some lease := by
    rw [KeyTable.lookup_deleteWhere, hrow, Option.filter_eq_some_iff, stale_eq_false hkeep]
    exact ⟨rfl, rfl⟩
  unfold acquire
  dsimp only
  split_ifs with hmem
  · exact hreap
  · have hne : other ≠ ⟨phase.asStr, space, inputGeneration⟩ := by
      rintro rfl
      exact hmem (KeyTable.mem_iff.mpr ⟨lease, hreap⟩)
    rw [AList.lookup_insert_ne hne]
    exact hreap

end Acquire

theorem lookup_release {phase : LeasePhase} {space : String} {inputGeneration : Int} :
    (release phase space inputGeneration token leases).lookup key =
      (leases.lookup key).filter fun lease =>
        !(key == (⟨phase.asStr, space, inputGeneration⟩ : LeaseKey) && lease.token == token) := by
  rw [release, KeyTable.lookup_deleteWhere]

theorem release_keeps {phase : LeasePhase} {space : String} {inputGeneration : Int}
    (hrow : leases.lookup key = some lease)
    (hother : key ≠ ⟨phase.asStr, space, inputGeneration⟩ ∨ lease.token ≠ token) :
    (release phase space inputGeneration token leases).lookup key = some lease := by
  rw [lookup_release, hrow, Option.filter_eq_some_iff]
  refine ⟨rfl, ?_⟩
  rcases hother with hne | hne <;> simp [hne]

theorem reap_keeps (hrow : leases.lookup key = some lease)
    (hkeep : now < lease.expiresAt ∨ ∀ phase : LeasePhase, phase.asStr ≠ key.phase) :
    (reapExpiredM6Phases now leases).lookup key = some lease := by
  rw [reapExpiredM6Phases, KeyTable.lookup_deleteWhere, hrow, Option.filter_eq_some_iff]
  refine ⟨rfl, ?_⟩
  rcases hkeep with hlive | hother
  · have hnot : ¬ lease.expiresAt ≤ now := by omega
    simp [expiredM6, hnot]
  · simp [expiredM6, hother]

theorem lookup_reap_le (hrow : (reapExpiredM6Phases now leases).lookup key = some lease) :
    leases.lookup key = some lease := by
  rw [reapExpiredM6Phases, KeyTable.lookup_deleteWhere, Option.filter_eq_some_iff] at hrow
  exact hrow.1

end Leases

end Wenlan.Genesis

/-!
## Who owns an operation

Any number of workers acquire, check, release and reap leases in any order, and time passes
between their moves.  A write transaction of the database is one move; only the clock may move
between the two statements of an acquire.
-/

namespace Wenlan.Genesis

open Support.Transition (Run Reaches)

/-- The registry with the clock, and how many tokens were drawn from the generator. -/
structure Registry where
  leases : Leases
  now : Int
  drawn : ℕ

/-- A worker names any operation and presents any token, its own or one it has lost. -/
inductive LeaseMove where
  | wait (seconds : ℕ)
  | acquire (phase : LeasePhase) (space : String) (inputGeneration attempt : Int) (between : ℕ)
  | owns (phase : LeasePhase) (space : String) (inputGeneration : Int) (token : String)
  | release (phase : LeasePhase) (space : String) (inputGeneration : Int) (token : String)
  | reap

namespace Registry

def owns (s : Registry) (phase : LeasePhase) (space : String) (inputGeneration : Int)
    (token : String) : Bool :=
  Leases.owns phase space inputGeneration token s.now s.leases

/-- One move; `newV4` gives the token that is drawn as the n-th. -/
def next (newV4 : ℕ → String) (s : Registry) : LeaseMove → Registry
  | .wait seconds => { s with now := s.now + seconds }
  | .acquire phase space inputGeneration attempt between =>
    { leases := (Leases.acquire phase space inputGeneration attempt (newV4 s.drawn) s.now
        (s.now + between) s.leases).2
      now := s.now + between
      drawn := s.drawn + 1 }
  | .owns _ _ _ _ => s
  | .release phase space inputGeneration token =>
    { s with leases := Leases.release phase space inputGeneration token s.leases }
  | .reap => { s with leases := Leases.reapExpiredM6Phases s.now s.leases }

def Step (newV4 : ℕ → String) (s : Registry) (move : LeaseMove) (t : Registry) : Prop :=
  s.next newV4 move = t

/-- The generator never gives a token twice, and none that it will give is stored already. -/
structure FreshTokens (newV4 : ℕ → String) (s : Registry) : Prop where
  distinct : Function.Injective newV4
  unused : ∀ key lease n, s.leases.lookup key = some lease → s.drawn ≤ n → lease.token ≠ newV4 n

variable {newV4 : ℕ → String} {s t : Registry} {move : LeaseMove} {key : LeaseKey}
  {lease : Lease} {token : String}

theorem now_le (h : Step newV4 s move t) : s.now ≤ t.now := by
  subst h
  cases move with
  | wait seconds =>
    show s.now ≤ s.now + seconds
    omega
  | acquire phase space inputGeneration attempt between =>
    show s.now ≤ s.now + between
    omega
  | owns | release | reap => exact Int.le_refl s.now

theorem drawn_le (h : Step newV4 s move t) : s.drawn ≤ t.drawn := by
  subst h
  cases move with
  | acquire => exact Nat.le_succ _
  | wait | owns | release | reap => exact le_refl s.drawn

theorem drawn_le_of_reaches (h : Reaches (Step newV4) s t) : s.drawn ≤ t.drawn := by
  obtain ⟨moves, hmoves⟩ := h
  induction hmoves with
  | refl => exact Nat.le_refl _
  | cons hone _ ih => exact (drawn_le hone).trans ih

theorem lookup_next (h : Step newV4 s move t) (hrow : t.leases.lookup key = some lease) :
    s.leases.lookup key = some lease ∨ (lease.token = newV4 s.drawn ∧ t.drawn = s.drawn + 1) := by
  subst h
  cases move with
  | wait | owns => exact .inl hrow
  | acquire phase space inputGeneration attempt between =>
    rcases Leases.lookup_acquire rfl hrow with hold | ⟨-, htoken, -⟩
    · exact .inl hold
    · exact .inr ⟨htoken, rfl⟩
  | release phase space inputGeneration token =>
    have hrow' : (Leases.release phase space inputGeneration token s.leases).lookup key =
      some lease := hrow
    rw [Leases.lookup_release, Option.filter_eq_some_iff] at hrow'
    exact .inl hrow'.1
  | reap => exact .inl (Leases.lookup_reap_le hrow)

theorem FreshTokens.step (hfresh : FreshTokens newV4 s) (h : Step newV4 s move t) :
    FreshTokens newV4 t := by
  refine ⟨hfresh.distinct, fun key lease n hrow hn => ?_⟩
  rcases lookup_next h hrow with hold | ⟨htoken, hdrawn⟩
  · exact hfresh.unused key lease n hold ((drawn_le h).trans hn)
  · rw [htoken]
    intro hsame
    have heq : s.drawn = n := hfresh.distinct hsame
    omega

theorem holds_of_next (h : Step newV4 s move t) (hpast : ∀ n, s.drawn ≤ n → token ≠ newV4 n)
    (hholds : t.leases.holds key token t.now) : s.leases.holds key token s.now := by
  obtain ⟨lease, hrow, htoken, hlive⟩ := Leases.holds_iff.mp hholds
  have hnow := now_le h
  rcases lookup_next h hrow with hold | ⟨hdrawn, -⟩
  · exact Leases.holds_iff.mpr ⟨lease, hold, htoken, by omega⟩
  · exact absurd (htoken.symm.trans hdrawn) (hpast s.drawn le_rfl)

theorem lost_stays_lost (hpast : ∀ n, s.drawn ≤ n → token ≠ newV4 n)
    (hlost : s.leases.holds key token s.now = false) (h : Reaches (Step newV4) s t) :
    t.leases.holds key token t.now = false := by
  have hstep : ∀ a move b, ((∀ n, a.drawn ≤ n → token ≠ newV4 n) ∧
      a.leases.holds key token a.now = false) → Step newV4 a move b →
      (∀ n, b.drawn ≤ n → token ≠ newV4 n) ∧ b.leases.holds key token b.now = false := by
    rintro a move b ⟨hpast, hlost⟩ hstep
    refine ⟨fun n hn => hpast n ((drawn_le hstep).trans hn), ?_⟩
    rw [Bool.eq_false_iff] at hlost ⊢
    exact fun hheld => hlost (holds_of_next hstep hpast hheld)
  exact (h.invariant hstep ⟨hpast, hlost⟩).2

theorem past_of_holds (hfresh : FreshTokens newV4 s)
    (h : s.leases.holds key token s.now) : ∀ n, s.drawn ≤ n → token ≠ newV4 n := by
  obtain ⟨lease, hrow, rfl, -⟩ := Leases.holds_iff.mp h
  exact fun n hn => hfresh.unused key lease n hrow hn

/-- From any registry and for any order of moves: one owner of an operation at a time, no way
back for a token that has stopped owning it, and rows of others survive a release and a reap. -/
theorem lease_registry_safety (hfresh : FreshTokens newV4 s) (hreach : Reaches (Step newV4) s t) :
    (∀ phase space inputGeneration token token', t.owns phase space inputGeneration token = true →
      t.owns phase space inputGeneration token' = true → token = token') ∧
    (∀ phase space inputGeneration token later last,
      t.owns phase space inputGeneration token = true →
      Reaches (Step newV4) t later → later.owns phase space inputGeneration token = false →
      Reaches (Step newV4) later last → last.owns phase space inputGeneration token = false) ∧
    (∀ phase space inputGeneration token key lease,
      t.leases.lookup key = some lease → lease.token ≠ token →
      (t.next newV4 (.release phase space inputGeneration token)).leases.lookup key =
        some lease) ∧ (∀ phase space inputGeneration attempt between key lease,
      t.leases.lookup key = some lease → key.phase ≠ phase.asStr →
      (t.next newV4 (.acquire phase space inputGeneration attempt between)).leases.lookup key =
        some lease) ∧ (∀ key lease, t.leases.lookup key = some lease →
      t.now < lease.expiresAt ∨ (∀ phase : LeasePhase, phase.asStr ≠ key.phase) →
      (t.next newV4 .reap).leases.lookup key = some lease) := by
  have hfresh_t : FreshTokens newV4 t :=
    hreach.invariant (fun _ _ _ hfresh hstep => hfresh.step hstep) hfresh
  refine ⟨?_, ?_, ?_, ?_, ?_⟩
  · intro phase space inputGeneration token token' h h'
    exact Leases.holder_unique h h'
  · intro phase space inputGeneration token later last howned hlater hlost hlast
    refine lost_stays_lost ?_ hlost hlast
    have hdrawn := drawn_le_of_reaches hlater
    exact fun n hn => past_of_holds hfresh_t howned n (hdrawn.trans hn)
  · intro phase space inputGeneration token key lease hrow hother
    exact Leases.release_keeps hrow (.inr hother)
  · intro phase space inputGeneration attempt between key lease hrow hother
    exact Leases.acquire_keeps hrow (.inl hother)
  · intro key lease hrow hkeep
    exact Leases.reap_keeps hrow hkeep

def unaryTokens (n : ℕ) : String := String.ofList (List.replicate n 'u')

theorem unaryTokens_injective : Function.Injective unaryTokens := by
  intro first second h
  have hlen := congrArg String.length h
  simpa [unaryTokens] using hlen

def emptyRegistry : Registry := ⟨∅, 0, 0⟩

theorem emptyRegistry_fresh : FreshTokens unaryTokens emptyRegistry := by
  refine ⟨unaryTokens_injective, fun key lease n hrow => ?_⟩
  rw [emptyRegistry, AList.lookup_empty] at hrow
  cases hrow

/-- A first holder loses its lease at the end of its time, and a second one takes over. -/
def takenOver : Registry :=
  ((emptyRegistry.next unaryTokens (.acquire .genesis "work" 7 0 1)).next unaryTokens
    (.wait 900)).next unaryTokens (.acquire .genesis "work" 7 0 0)

theorem lease_registry_safety_takeover : (∀ last, Reaches (Step unaryTokens) takenOver last →
      last.owns .genesis "work" 7 (unaryTokens 0) = false) ∧
    takenOver.owns .genesis "work" 7 (unaryTokens 1) = true := by
  have hfirst : Reaches (Step unaryTokens) emptyRegistry
      (emptyRegistry.next unaryTokens (.acquire .genesis "work" 7 0 1)) :=
    ⟨_, Run.single rfl⟩
  have hsec : Reaches (Step unaryTokens)
      (emptyRegistry.next unaryTokens (.acquire .genesis "work" 7 0 1)) takenOver :=
    ⟨_, Run.cons rfl (Run.single rfl)⟩
  refine ⟨fun last hlast => ?_, by decide⟩
  exact (lease_registry_safety emptyRegistry_fresh hfirst).2.1 .genesis "work" 7 (unaryTokens 0)
    takenOver last (by decide) hsec (by decide) hlast

end Registry

end Wenlan.Genesis
