import Mathlib.Data.List.Basic

/-!
# Programs that may be stopped

A program on a state that ends with a value or an error, and that may be stopped on its way.  The
states at which it may be stopped are part of what it does, each with a mark that says where it was.
A specification says what holds wherever it is stopped, when it returns and when it fails.
-/

namespace Wenlan.Support

/-- What a program does from one state. -/
structure Outcome (σ μ ε α : Type) where
  stops : List (μ × σ)
  state : σ
  result : Except ε α

def Interruptible (σ μ ε α : Type) := σ → Outcome σ μ ε α

namespace Interruptible

variable {σ μ ε α β : Type}

def ret (a : α) : Interruptible σ μ ε α := fun s => ⟨[], s, .ok a⟩

def fail (error : ε) : Interruptible σ μ ε α := fun s => ⟨[], s, .error error⟩

def read : Interruptible σ μ ε σ := fun s => ⟨[], s, .ok s⟩

/-- One step, which may be stopped before it and in the middle of it. -/
def act (before : μ) (during : σ → List (μ × σ)) (next : σ → σ) : Interruptible σ μ ε Unit :=
  fun s => ⟨(before, s) :: during s, next s, .ok ()⟩

def andThen (first : Interruptible σ μ ε α) (rest : α → Interruptible σ μ ε β) :
    Interruptible σ μ ε β := fun s =>
  match (first s).result with
  | .error error => ⟨(first s).stops, (first s).state, .error error⟩
  | .ok a => ⟨(first s).stops ++ (rest a (first s).state).stops, (rest a (first s).state).state,
      (rest a (first s).state).result⟩

instance : Monad (Interruptible σ μ ε) where
  pure := ret
  bind := andThen

def attempt (program : Interruptible σ μ ε α) : Interruptible σ μ ε (Except ε α) := fun s =>
  ⟨(program s).stops, (program s).state, .ok (program s).result⟩

def ofExcept : Except ε α → Interruptible σ μ ε α
  | .error error => fail error
  | .ok a => ret a

/-! ## Specifications -/

/-- From a state with `pre`: `stop` wherever the program is stopped, `post` when it returns and
`failed` when it fails. -/
structure Meets (pre : σ → Prop) (program : Interruptible σ μ ε α) (stop : μ → σ → Prop)
    (post : α → σ → Prop) (failed : ε → σ → Prop) : Prop where
  stops : ∀ s, pre s → ∀ mark t, (mark, t) ∈ (program s).stops → stop mark t
  returns : ∀ s, pre s → ∀ a, (program s).result = .ok a → post a (program s).state
  fails : ∀ s, pre s → ∀ error, (program s).result = .error error → failed error (program s).state

variable {pre : σ → Prop} {stop : μ → σ → Prop} {failed : ε → σ → Prop}

variable {post : α → σ → Prop}

theorem meets_ret {a : α} (h : ∀ s, pre s → post a s) : Meets pre (ret a) stop post failed where
  stops s _ mark t hmem := by cases hmem
  returns s hs b hb := by
    cases hb
    exact h s hs
  fails s _ error herror := by cases herror

theorem meets_pure {a : α} (h : ∀ s, pre s → post a s) : Meets pre (pure a) stop post failed :=
  meets_ret h

theorem meets_fail {error : ε} (h : ∀ s, pre s → failed error s) :
    Meets pre (fail error) stop post failed where
  stops s _ mark t hmem := by cases hmem
  returns s _ a ha := by cases ha
  fails s hs other herror := by
    cases herror
    exact h s hs

theorem meets_read : Meets pre (read : Interruptible σ μ ε σ) stop (fun a s => a = s ∧ pre s)
    failed where
  stops s _ mark t hmem := by cases hmem
  returns s hs a ha := by
    cases ha
    exact ⟨rfl, hs⟩
  fails s _ error herror := by cases herror

theorem meets_act {post : Unit → σ → Prop} {before : μ} {during : σ → List (μ × σ)}
    {next : σ → σ} (hbef : ∀ s, pre s → stop before s)
    (hdur : ∀ s, pre s → ∀ mark t, (mark, t) ∈ during s → stop mark t)
    (hnext : ∀ s, pre s → post () (next s)) :
    Meets pre (act before during next) stop post failed where
  stops s hs mark t hmem := by
    rcases List.mem_cons.mp hmem with heq | hmem
    · cases heq
      exact hbef s hs
    · exact hdur s hs mark t hmem
  returns s hs a ha := hnext s hs
  fails s _ error herror := by cases herror

variable {mid : α → σ → Prop}

theorem Meets.andThen {post : β → σ → Prop}
    {first : Interruptible σ μ ε α} {rest : α → Interruptible σ μ ε β}
    (hfirst : Meets pre first stop mid failed)
    (hrest : ∀ a, Meets (mid a) (rest a) stop post failed) :
    Meets pre (first >>= rest) stop post failed := by
  have hbind : ∀ s, (first >>= rest) s = Interruptible.andThen first rest s := fun s => rfl
  constructor
  · intro s hs mark t hmem
    rw [hbind, Interruptible.andThen] at hmem
    cases hresult : (first s).result with
    | error error =>
      rw [hresult] at hmem
      exact hfirst.stops s hs mark t hmem
    | ok a =>
      rw [hresult] at hmem
      rcases List.mem_append.mp hmem with hmem | hmem
      · exact hfirst.stops s hs mark t hmem
      · exact (hrest a).stops _ (hfirst.returns s hs a hresult) mark t hmem
  · intro s hs b hb
    rw [hbind, Interruptible.andThen] at hb ⊢
    cases hresult : (first s).result with
    | error error =>
      rw [hresult] at hb
      cases hb
    | ok a =>
      rw [hresult] at hb
      exact (hrest a).returns _ (hfirst.returns s hs a hresult) b hb
  · intro s hs error herror
    rw [hbind, Interruptible.andThen] at herror ⊢
    cases hresult : (first s).result with
    | error other =>
      rw [hresult] at herror
      cases herror
      exact hfirst.fails s hs _ hresult
    | ok a =>
      rw [hresult] at herror
      exact (hrest a).fails _ (hfirst.returns s hs a hresult) error herror

variable {program : Interruptible σ μ ε α}

variable {failed' : ε → σ → Prop}

theorem Meets.attempt
    (h : Meets pre program stop mid failed) :
    Meets pre (attempt program) stop
      (fun result s => (∀ a, result = .ok a → mid a s) ∧ ∀ error, result = .error error →
        failed error s) failed' where
  stops := h.stops
  returns s hs result hresult := by
    cases hresult
    exact ⟨h.returns s hs, h.fails s hs⟩
  fails s _ error herror := by cases herror

/-- The rule of consequence. -/
theorem Meets.weaken {pre' : σ → Prop} {stop' : μ → σ → Prop} {post' : α → σ → Prop}
    (h : Meets pre program stop post failed) (hpre : ∀ s, pre' s → pre s)
    (hstop : ∀ mark s, stop mark s → stop' mark s) (hpost : ∀ a s, post a s → post' a s)
    (hfail : ∀ error s, failed error s → failed' error s) :
    Meets pre' program stop' post' failed' where
  stops s hs mark t hmem := hstop mark t (h.stops s (hpre s hs) mark t hmem)
  returns s hs a ha := hpost a _ (h.returns s (hpre s hs) a ha)
  fails s hs error herror := hfail error _ (h.fails s (hpre s hs) error herror)

theorem meets_of_each (h : ∀ s, pre s → Meets (fun t => t = s) program stop post failed) :
    Meets pre program stop post failed where
  stops s hs := (h s hs).stops s rfl
  returns s hs := (h s hs).returns s rfl
  fails s hs := (h s hs).fails s rfl

/-- A loop keeps what each of its rounds keeps of what is left to do. -/
theorem meets_foldlM {inv : List α → β → σ → Prop} {step : β → α → Interruptible σ μ ε β}
    {items : List α} {b : β}
    (hstep : ∀ item rest b, Meets (inv (item :: rest) b) (step b item) stop (inv rest) failed) :
    Meets (inv items b) (items.foldlM step b) stop (inv []) failed := by
  induction items generalizing b with
  | nil =>
    rw [List.foldlM_nil]
    exact meets_pure fun s hs => hs
  | cons item rest ih =>
    rw [List.foldlM_cons]
    exact (hstep item rest b).andThen fun b' => ih

end Interruptible

end Wenlan.Support
