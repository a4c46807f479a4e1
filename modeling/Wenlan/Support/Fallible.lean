import Mathlib.Data.List.Nodup

/-!
# Loops that stop at the first failure

What is known of a `mapM`, a `forM` or a `foldlM` over a list that got to its end.
-/

namespace Wenlan.Support.Fallible

variable {ε α β σ : Type}

variable {rest : α → Except ε β}

theorem bind_ok {first : Except ε α} {b : β}
    (h : (first >>= rest) = .ok b) : ∃ a, first = .ok a ∧ rest a = .ok b := by
  cases first with
  | error error => simp [bind, Except.bind] at h
  | ok a => exact ⟨a, rfl, h⟩

variable {a : α}

theorem mapError_eq_ok {ε' : Type} {f : ε → ε'} {result : Except ε α} :
    result.mapError f = .ok a ↔ result = .ok a := by
  cases result with
  | error error => exact iff_of_false (fun h => by cases h) (fun h => by cases h)
  | ok b => exact ⟨fun h => congrArg Except.ok (Except.ok.inj h),
      fun h => congrArg Except.ok (Except.ok.inj h)⟩

def check (holds : Prop) [Decidable holds] (error : ε) : Except ε Unit :=
  if holds then .ok () else .error error

theorem check_eq_ok {holds : Prop} [Decidable holds] {error : ε} {u : Unit} :
    check holds error = .ok u ↔ holds := by
  unfold check
  split_ifs with h
  · exact iff_of_true rfl h
  · exact iff_of_false (fun h => by cases h) h

theorem mapM_returns {f : α → Except ε β} {items : List α}
    (h : ∀ item ∈ items, ∃ result, f item = .ok result) :
    ∃ results, items.mapM f = .ok results := by
  induction items with
  | nil => exact ⟨[], rfl⟩
  | cons item rest ih =>
    obtain ⟨first, hfirst⟩ := h item List.mem_cons_self
    obtain ⟨others, hoth⟩ := ih fun other hmem => h other (List.mem_cons_of_mem _ hmem)
    refine ⟨first :: others, ?_⟩
    rw [List.mapM_cons, hfirst, hoth]
    rfl

theorem forM_ok {f : α → Except ε Unit} {items : List α} {u : Unit}
    (h : items.forM f = .ok u) : ∀ item ∈ items, f item = .ok () := by
  induction items with
  | nil =>
    intro item hmem
    cases hmem
  | cons first rest ih =>
    have hbind : (f first >>= fun _ => rest.forM f) = .ok u := h
    obtain ⟨u', hfirst, hrest⟩ := bind_ok hbind
    intro item hmem
    cases hmem with
    | head => exact hfirst
    | tail _ hmem => exact ih hrest item hmem

section Folds

variable {step : σ → α → Except ε σ} {items : List α} {s s' : σ}

/-- What every step preserves holds at the end. -/
theorem foldlM_invariant {P : σ → Prop}
    (hstep : ∀ item ∈ items, ∀ s s', P s → step s item = .ok s' → P s')
    (hs : P s) (h : items.foldlM step s = .ok s') : P s' := by
  induction items generalizing s with
  | nil =>
    rw [List.foldlM_nil] at h
    cases h
    exact hs
  | cons item rest ih =>
    rw [List.foldlM_cons] at h
    obtain ⟨mid, hmid, h⟩ := bind_ok h
    exact ih (fun other hmem => hstep other (List.mem_cons_of_mem _ hmem))
      (hstep item List.mem_cons_self s mid hs hmid) h

theorem foldlM_same (part : σ → β)
    (hstep : ∀ item ∈ items, ∀ s s', step s item = .ok s' → part s' = part s)
    (h : items.foldlM step s = .ok s') : part s' = part s := by
  refine foldlM_invariant (P := fun current => part current = part s) ?_ rfl h
  intro item hmem current next hcur hnext
  rw [hstep item hmem current next hnext, hcur]

/-- A part of the state that one step of the loop owns goes through that step once. -/
theorem foldlM_owned [DecidableEq α] (part : σ → β) {effect : β → β} {owner : α}
    (hnodup : items.Nodup)
    (hother : ∀ item ∈ items, item ≠ owner → ∀ s s', step s item = .ok s' → part s' = part s)
    (howner : ∀ s s', step s owner = .ok s' → part s' = effect (part s))
    (h : items.foldlM step s = .ok s') :
    part s' = if owner ∈ items then effect (part s) else part s := by
  induction items generalizing s with
  | nil =>
    rw [List.foldlM_nil] at h
    cases h
    rfl
  | cons item rest ih =>
    rw [List.foldlM_cons] at h
    obtain ⟨mid, hmid, h⟩ := bind_ok h
    obtain ⟨hnotm, hrest⟩ := List.nodup_cons.mp hnodup
    have htail := ih hrest (fun other hmem => hother other (List.mem_cons_of_mem _ hmem)) h
    by_cases heq : item = owner
    · subst heq
      rw [if_neg hnotm] at htail
      rw [if_pos List.mem_cons_self, htail, howner s mid hmid]
    · have hsame := hother item List.mem_cons_self heq s mid hmid
      rw [hsame] at htail
      rw [htail]
      have hiff : owner ∈ item :: rest ↔ owner ∈ rest := by
        rw [List.mem_cons]
        exact or_iff_right (Ne.symm heq)
      simp only [hiff]

structure Runs (Can : List β → σ → Prop) (Did : List β → σ → σ → Prop) (parts : List β) (s : σ)
    (result : Except ε σ) : Prop where
  returns : (∃ s', result = .ok s') ↔ Can parts s
  did : ∀ s', result = .ok s' → Did parts s s'

/-- A fold runs on the parts of its items in order. -/
theorem runs_foldlM {Can : List β → σ → Prop} {Did : List β → σ → σ → Prop} {parts : α → List β}
    (hnil : ∀ s, Can [] s ∧ Did [] s s) (hfront : ∀ xs ys s, Can (xs ++ ys) s → Can xs s)
    (hcan : ∀ xs ys s s', Did xs s s' → Can xs s → (Can (xs ++ ys) s ↔ Can ys s'))
    (hdid : ∀ xs ys s s' s'', Did xs s s' → Did ys s' s'' → Did (xs ++ ys) s s'')
    (hstep : ∀ item ∈ items, ∀ s, Runs Can Did (parts item) s (step s item)) (s : σ) :
    Runs Can Did (items.flatMap parts) s (items.foldlM step s) := by
  induction items generalizing s with
  | nil =>
    rw [List.foldlM_nil, List.flatMap_nil]
    refine ⟨iff_of_true ⟨s, rfl⟩ (hnil s).1, ?_⟩
    intro s' h
    cases h
    exact (hnil s).2
  | cons item rest ih =>
    have hhead := hstep item List.mem_cons_self s
    have htail := fun s' => ih (fun other hmem => hstep other (List.mem_cons_of_mem _ hmem)) s'
    rw [List.foldlM_cons, List.flatMap_cons]
    cases hitem : step s item with
    | error error =>
      rw [hitem] at hhead
      refine ⟨iff_of_false ?_ ?_, ?_⟩
      · rintro ⟨_, h⟩
        cases h
      · intro h
        obtain ⟨_, h⟩ := hhead.returns.2 (hfront _ _ _ h)
        cases h
      · intro s' h
        cases h
    | ok s₁ =>
      have hfirst := hhead.did s₁ hitem
      have hcan₁ := hhead.returns.1 ⟨s₁, hitem⟩
      constructor
      · rw [hcan _ _ _ _ hfirst hcan₁]
        exact (htail s₁).returns
      · intro s' h
        exact hdid _ _ _ _ _ hfirst ((htail s₁).did s' h)

end Folds

def Yields (P : α → Prop) (result : Except ε α) : Prop :=
  ∃ a, result = .ok a ∧ P a

section Yields

variable {P : α → Prop} {Q : β → Prop}

@[simp] theorem yields_ok : Yields (ε := ε) P (.ok a) ↔ P a :=
  ⟨fun ⟨_, heq, h⟩ => Except.ok.inj heq ▸ h, fun h => ⟨a, rfl, h⟩⟩

@[simp] theorem yields_pure : Yields (ε := ε) P (pure a) ↔ P a :=
  yields_ok

@[simp] theorem yields_error {error : ε} : Yields P (.error error) ↔ False :=
  iff_false_intro fun ⟨_, heq, _⟩ => by cases heq

@[simp] theorem yields_bind {first : Except ε α} :
    Yields Q (first >>= rest) ↔ Yields (fun a => Yields Q (rest a)) first := by
  cases first with
  | error error => exact iff_of_false (fun ⟨_, heq, _⟩ => by cases heq) (fun ⟨_, heq, _⟩ => by cases heq)
  | ok a =>
    rw [yields_ok]
    exact Iff.rfl

theorem yields_ite {c : Prop} [Decidable c] {yes no : Except ε α} :
    Yields P (if c then yes else no) ↔ if c then Yields P yes else Yields P no := by
  by_cases hc : c
  · rw [if_pos hc, if_pos hc]
  · rw [if_neg hc, if_neg hc]

end Yields

end Wenlan.Support.Fallible
