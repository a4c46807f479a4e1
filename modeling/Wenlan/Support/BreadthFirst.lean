import Mathlib.Data.Finset.Card

/-!
# Breadth-first search with bounded depth and bounded size
-/

namespace Wenlan.BreadthFirst

open List

variable {α : Type*}

/-- `Near edge seeds d v`: a path of `d` edges leads from a seed to `v`. -/
inductive Near (edge : α → α → Prop) (seeds : List α) : Nat → α → Prop
  | seed {v : α} : v ∈ seeds → Near edge seeds 0 v
  | step {d : Nat} {u v : α} : Near edge seeds d u → edge u v → Near edge seeds (d + 1) v

def Within (edge : α → α → Prop) (seeds : List α) (hops : Nat) (v : α) : Prop :=
  ∃ d, d ≤ hops ∧ Near edge seeds d v

/-- What a bounded search owes: the ball around the seeds, unless it is full. -/
structure Ball (edge : α → α → Prop) (seeds : List α) (hops cap : Nat) (out : List α) : Prop where
  planted : ∀ s ∈ seeds, s ∈ out
  nodup : out.Nodup
  bounded : out.length ≤ cap
  within : ∀ v ∈ out, Within edge seeds hops v
  complete : out.length < cap → ∀ v, Within edge seeds hops v → v ∈ out

variable {edge : α → α → Prop} {seeds : List α} {hops cap : Nat}

theorem Ball.perm {out other : List α} (h : Ball edge seeds hops cap out)
    (hperm : other.Perm out) : Ball edge seeds hops cap other where
  planted s hs := hperm.mem_iff.mpr (h.planted s hs)
  nodup := hperm.nodup_iff.mpr h.nodup
  bounded := by rw [hperm.length_eq]; exact h.bounded
  within v hv := h.within v (hperm.mem_iff.mp hv)
  complete hlt v hv := hperm.mem_iff.mpr (h.complete (by rwa [← hperm.length_eq]) v hv)

structure Walk (α : Type*) where
  visited : List α
  queue : List (α × Nat)

/-- `Grown w w' depth new`: from `w` to `w'` some nodes of `new` were visited, at `depth`. -/
def Grown (w w' : Walk α) (depth : Nat) (new : List α) : Prop :=
  ∃ added : List α, w'.visited = w.visited ++ added ∧
    w'.queue = w.queue ++ added.map (fun v => (v, depth)) ∧
    (∀ v ∈ added, v ∈ new) ∧ (w.visited.Nodup → w'.visited.Nodup)

theorem Grown.refl (w : Walk α) (depth : Nat) (new : List α) : Grown w w depth new :=
  ⟨[], by simp, by simp, by simp, id⟩

theorem Grown.trans {w w' w'' : Walk α} {depth : Nat} {node : α} {rest : List α}
    (h : Grown w w' depth [node]) (h' : Grown w' w'' depth rest) :
    Grown w w'' depth (node :: rest) := by
  obtain ⟨added, hv, hq, hmem, hnodup⟩ := h
  obtain ⟨more, hv', hq', hmem', hnodup'⟩ := h'
  refine ⟨added ++ more, by simp [hv, hv'], by simp [hq, hq'], ?_, hnodup' ∘ hnodup⟩
  intro v hv
  rcases mem_append.mp hv with hv | hv
  · simpa using Or.inl (hmem v hv)
  · exact mem_cons_of_mem _ (hmem' v hv)

section

variable {w w' : Walk α} {depth : Nat} {new : List α} (h : Grown w w' depth new)
include h

theorem Grown.mem
    {v : α} (hv : v ∈ w.visited) : v ∈ w'.visited := by
  obtain ⟨added, heq, -⟩ := h
  rw [heq]
  exact mem_append_left _ hv

theorem Grown.measure :
    w'.queue.length + w.visited.length = w.queue.length + w'.visited.length ∧
      w.visited.length ≤ w'.visited.length := by
  obtain ⟨added, hv, hq, -⟩ := h
  rw [hv, hq]
  simp only [length_append, length_map]
  omega

end

/-- The nodes visited so far stand in order of discovery in `done ++ queue`, nearest first,
and what is done has all its neighbours there. -/
structure Layered (edge : α → α → Prop) (seeds : List α) (hops cap : Nat)
    (done : List (α × Nat)) (w : Walk α) : Prop where
  log : w.visited = (done ++ w.queue).map Prod.fst
  nodup : w.visited.Nodup
  bounded : w.visited.length ≤ cap
  planted : ∀ s ∈ seeds, (s, 0) ∈ done ++ w.queue
  near : ∀ e ∈ done ++ w.queue, Near edge seeds e.2 e.1 ∧ e.2 ≤ hops
  sorted : (done ++ w.queue).Pairwise (fun e e' => e.2 ≤ e'.2)
  layer : ∀ e ∈ done ++ w.queue, ∀ front ∈ w.queue, e.2 ≤ front.2 + 1
  closed : ∀ e ∈ done, e.2 < hops → ∀ v, edge e.1 v → ∃ d, d ≤ e.2 + 1 ∧ (v, d) ∈ done ++ w.queue

variable {done : List (α × Nat)} {visited : List α} {node : α} {depth : Nat} {queue : List (α × Nat)}

section

variable (h : Layered edge seeds hops cap done ⟨visited, (node, depth) :: queue⟩)
include h

/-- A node at the last depth is done without a look at its neighbours. -/
theorem Layered.skip
    (hdepth : hops ≤ depth) :
    Layered edge seeds hops cap (done ++ [(node, depth)]) ⟨visited, queue⟩ := by
  have hlog : done ++ [(node, depth)] ++ queue = done ++ (node, depth) :: queue := by simp
  refine ⟨?_, h.nodup, h.bounded, ?_, ?_, ?_, ?_, ?_⟩ <;> simp only [hlog]
  · exact h.log
  · exact h.planted
  · exact h.near
  · exact h.sorted
  · exact fun e he front hfront => h.layer e he front (mem_cons_of_mem _ hfront)
  · intro e he hlt
    rcases mem_append.mp he with he | he
    · exact h.closed e he hlt
    · obtain rfl := mem_singleton.mp he
      exact absurd hlt (by simpa using hdepth)

/-- A node with room left around it is done once its neighbours are in the queue. -/
theorem Layered.expand
    (hdepth : depth < hops) {new : List α} (hnew : ∀ v ∈ new, edge node v)
    {w' : Walk α} (hle : w'.visited.length ≤ cap)
    (hgrown : Grown ⟨visited, queue⟩ w' (depth + 1) new) :
    (∀ v ∈ w'.visited, Within edge seeds hops v) ∧ w'.visited.Nodup ∧
      ((∀ v, edge node v → v ∈ w'.visited) →
        Layered edge seeds hops cap (done ++ [(node, depth)]) w') := by
  obtain ⟨added, hv, hq, hmem, hnodup⟩ := hgrown
  have hlog : done ++ [(node, depth)] ++ w'.queue =
      (done ++ (node, depth) :: queue) ++ added.map (fun v => (v, depth + 1)) := by simp [hq]
  have hvis : w'.visited = (done ++ [(node, depth)] ++ w'.queue).map Prod.fst := by
    rw [hlog, map_append, ← h.log, hv, map_map]
    exact congrArg _ (map_id added).symm
  have hentry : ∀ e ∈ added.map (fun v => (v, depth + 1)), e.2 = depth + 1 ∧ edge node e.1 := by
    intro e he
    obtain ⟨v, hv, rfl⟩ := mem_map.mp he
    exact ⟨rfl, hnew v (hmem v hv)⟩
  have hhere := h.near (node, depth) (by simp)
  have htop : ∀ e ∈ done ++ (node, depth) :: queue, e.2 ≤ depth + 1 :=
    fun e he => h.layer e he (node, depth) (by simp)
  have hnear : ∀ e ∈ done ++ [(node, depth)] ++ w'.queue,
      Near edge seeds e.2 e.1 ∧ e.2 ≤ hops := by
    intro e he
    rcases mem_append.mp (hlog ▸ he) with he | he
    · exact h.near e he
    · obtain ⟨hd, hstep⟩ := hentry e he
      rw [hd]
      exact ⟨.step hhere.1 hstep, hdepth⟩
  have hall : ∀ e ∈ done ++ [(node, depth)] ++ w'.queue, e.2 ≤ depth + 1 := by
    intro e he
    rcases mem_append.mp (hlog ▸ he) with he | he
    · exact htop e he
    · exact (hentry e he).1.le
  have hsort : (done ++ [(node, depth)] ++ w'.queue).Pairwise (fun e e' => e.2 ≤ e'.2) := by
    rw [hlog, pairwise_append]
    refine ⟨h.sorted, ?_, fun e he e' he' => (hentry e' he').1 ▸ htop e he⟩
    exact pairwise_map.mpr (pairwise_of_forall fun _ _ => le_refl _)
  refine ⟨fun v hv => ?_, hnodup h.nodup, fun hroom =>
    ⟨hvis, hnodup h.nodup, hle, ?_, hnear, hsort, ?_, ?_⟩⟩
  · rw [hvis] at hv
    obtain ⟨e, he, rfl⟩ := mem_map.mp hv
    exact ⟨e.2, (hnear e he).2, (hnear e he).1⟩
  · intro s hs
    rw [hlog]
    exact mem_append_left _ (h.planted s hs)
  · intro e he front hfront
    rw [append_assoc, singleton_append] at hsort
    have hge : depth ≤ front.2 :=
      rel_of_pairwise_cons (pairwise_append.mp hsort).2.1 hfront
    have := hall e he
    omega
  · intro e he hlt v hstep
    rcases mem_append.mp he with he | he
    · obtain ⟨d, hd, hin⟩ := h.closed e he hlt v hstep
      exact ⟨d, hd, hlog ▸ mem_append_left _ hin⟩
    · obtain rfl := mem_singleton.mp he
      have hin := hroom v hstep
      rw [hvis] at hin
      obtain ⟨e, he, rfl⟩ := mem_map.mp hin
      exact ⟨e.2, hall e he, he⟩

end

theorem Layered.ball (h : Layered edge seeds hops cap done ⟨visited, []⟩) :
    Ball edge seeds hops cap visited := by
  obtain ⟨hlog, hnodup, hboun, hseeds, hnear, -, -, hclos⟩ := h
  simp only [append_nil] at hlog hseeds hnear hclos
  subst hlog
  refine ⟨fun s hs => mem_map_of_mem (hseeds s hs), hnodup, hboun, ?_, ?_⟩
  · intro v hv
    obtain ⟨e, he, rfl⟩ := mem_map.mp hv
    exact ⟨e.2, (hnear e he).2, (hnear e he).1⟩
  · rintro - v ⟨d, hd, hv⟩
    suffices h : ∃ d', d' ≤ d ∧ (v, d') ∈ done by
      obtain ⟨d', -, hin⟩ := h
      exact mem_map_of_mem hin
    induction hv with
    | seed hs => exact ⟨0, le_refl _, hseeds _ hs⟩
    | step _ hstep ih =>
      obtain ⟨d', hd', hin⟩ := ih (by omega)
      obtain ⟨d'', hd'', hin'⟩ := hclos _ hin (by simp only; omega) _ hstep
      exact ⟨d'', by simp only at hd''; omega, hin'⟩

variable [DecidableEq α] {next : α → List α}

def Walk.visit (walk : Walk α) (node : α) (depth : Nat) : Walk α :=
  if node ∈ walk.visited then walk
  else ⟨walk.visited ++ [node], walk.queue ++ [(node, depth)]⟩

def plantSeeds (cap : Nat) : List α → Walk α → Walk α
  | [], walk => walk
  | seed :: rest, walk =>
    if cap ≤ (walk.visit seed 0).visited.length then walk.visit seed 0
    else plantSeeds cap rest (walk.visit seed 0)

def visitAll (cap depth : Nat) : List α → Walk α → Walk α
  | [], walk => walk
  | node :: rest, walk =>
    if cap ≤ walk.visited.length then walk
    else visitAll cap depth rest (walk.visit node depth)

section

variable (w : Walk α) (node : α) (depth : Nat)

theorem grown_visit : Grown w (w.visit node depth) depth [node] := by
  unfold Walk.visit
  split
  · exact .refl w depth _
  · rename_i hnew
    refine ⟨[node], rfl, by simp, by simp, fun h => ?_⟩
    exact nodup_append.mpr ⟨h, by simp, by simpa using fun v hv (heq : v = node) => hnew (heq ▸ hv)⟩

theorem mem_visit : node ∈ (w.visit node depth).visited := by
  unfold Walk.visit
  split
  · assumption
  · simp

theorem length_visit_le : (w.visit node depth).visited.length ≤ w.visited.length + 1 := by
  unfold Walk.visit
  split <;> simp

end

theorem grown_visitAll (cap depth : Nat) (new : List α) (w : Walk α) :
    Grown w (visitAll cap depth new w) depth new ∧
      (w.visited.length ≤ cap → (visitAll cap depth new w).visited.length ≤ cap) ∧
      ((visitAll cap depth new w).visited.length < cap →
        ∀ v ∈ new, v ∈ (visitAll cap depth new w).visited) := by
  induction new generalizing w with
  | nil => exact ⟨.refl w depth [], id, by simp⟩
  | cons node rest ih =>
    obtain ⟨hgrown, hle, hall⟩ := ih (w.visit node depth)
    have hvisit := grown_visit w node depth
    have hone := length_visit_le w node depth
    unfold visitAll
    split
    · exact ⟨.refl w depth _, id, by omega⟩
    · refine ⟨hvisit.trans hgrown, fun _ => hle (by omega), fun hlt v hv => ?_⟩
      rcases mem_cons.mp hv with rfl | hv
      · exact hgrown.mem (mem_visit w v depth)
      · exact hall hlt v hv

theorem grown_plantSeeds (cap : Nat) (seeds : List α) (w : Walk α) :
    Grown w (plantSeeds cap seeds w) 0 seeds ∧ ((plantSeeds cap seeds w).visited.length < cap →
        ∀ v ∈ seeds, v ∈ (plantSeeds cap seeds w).visited) := by
  induction seeds generalizing w with
  | nil => exact ⟨.refl w 0 [], by simp⟩
  | cons seed rest ih =>
    obtain ⟨hgrown, hall⟩ := ih (w.visit seed 0)
    have hvisit := grown_visit w seed 0
    unfold plantSeeds
    split
    · exact ⟨hvisit.trans (.refl _ 0 rest), by omega⟩
    · refine ⟨hvisit.trans hgrown, fun hlt v hv => ?_⟩
      rcases mem_cons.mp hv with rfl | hv
      · exact hgrown.mem (mem_visit w v 0)
      · exact hall hlt v hv

def walk (next : α → List α) (hops cap : Nat) : Walk α → List α
  | ⟨visited, []⟩ => visited
  | ⟨visited, (node, depth) :: queue⟩ =>
    if hops ≤ depth then walk next hops cap ⟨visited, queue⟩
    else if cap ≤ (visitAll cap (depth + 1) (next node) ⟨visited, queue⟩).visited.length then
      (visitAll cap (depth + 1) (next node) ⟨visited, queue⟩).visited
    else walk next hops cap (visitAll cap (depth + 1) (next node) ⟨visited, queue⟩)
termination_by w => w.queue.length + (cap - w.visited.length)
decreasing_by
  · simp only [List.length_cons]
    omega
  · have h := (grown_visitAll cap (depth + 1) (next node) ⟨visited, queue⟩).1.measure
    simp only [List.length_cons] at h ⊢
    omega

def search (next : α → List α) (hops cap : Nat) (seeds : List α) : List α :=
  walk next hops cap (plantSeeds cap seeds ⟨[], []⟩)

theorem ball_walk (w : Walk α) (h : Layered (fun u v => v ∈ next u) seeds hops cap done w) :
    Ball (fun u v => v ∈ next u) seeds hops cap (walk next hops cap w) := by
  induction w using walk.induct next hops cap generalizing done with
  | case1 visited =>
    rw [walk]
    exact h.ball
  | case2 visited node depth queue hdepth ih =>
    rw [walk, if_pos hdepth]
    exact ih (h.skip hdepth)
  | case3 visited node depth queue hdepth hfull =>
    rw [walk, if_neg hdepth, if_pos hfull]
    obtain ⟨hgrown, hle, -⟩ := grown_visitAll cap (depth + 1) (next node) ⟨visited, queue⟩
    have hbound := hle h.bounded
    obtain ⟨hwith, hnodup, -⟩ := h.expand (by omega) (fun _ => id) hbound hgrown
    refine ⟨fun s hs => hgrown.mem ?_, hnodup, hbound, hwith, fun hlt => by omega⟩
    rw [h.log]
    exact mem_map_of_mem (h.planted s hs)
  | case4 visited node depth queue hdepth hroom ih =>
    rw [walk, if_neg hdepth, if_neg hroom]
    obtain ⟨hgrown, hle, hall⟩ := grown_visitAll cap (depth + 1) (next node) ⟨visited, queue⟩
    exact ih ((h.expand (by omega) (fun _ => id) (hle h.bounded) hgrown).2.2 (hall (by omega)))

theorem ball_search (hcap : seeds.dedup.length ≤ cap) :
    Ball (fun u v => v ∈ next u) seeds hops cap (search next hops cap seeds) := by
  obtain ⟨⟨added, hv, hq, hmem, hnodup⟩, hall⟩ := grown_plantSeeds cap seeds ⟨[], []⟩
  simp only [nil_append] at hv hq hnodup
  rw [hv] at hnodup hall
  have hnodup := hnodup nodup_nil
  have hlen : added.length ≤ seeds.dedup.length :=
    (hnodup.subperm fun v hv => mem_dedup.mpr (hmem v hv)).length_le
  have hplant : ∀ s ∈ seeds, s ∈ added := by
    by_cases hlt : added.length < cap
    · exact hall hlt
    · have hperm := (hnodup.subperm fun v hv =>
        mem_dedup.mpr (hmem v hv)).perm_of_length_le (by omega)
      exact fun s hs => hperm.mem_iff.mpr (mem_dedup.mpr hs)
  have hentry : ∀ e ∈ added.map (fun v => (v, 0)), e.2 = 0 ∧ e.1 ∈ seeds := by
    intro e he
    obtain ⟨v, hv, rfl⟩ := mem_map.mp he
    exact ⟨rfl, hmem v hv⟩
  have hball : Layered (fun u v => v ∈ next u) seeds hops cap []
      (plantSeeds cap seeds ⟨[], []⟩) → Ball _ _ _ _ _ := ball_walk _
  refine hball ⟨?_, hv ▸ hnodup, hv ▸ hlen.trans hcap, ?_, ?_, ?_, ?_, by simp⟩ <;>
    simp only [hq, nil_append]
  · rw [hv, map_map]
    exact (map_id added).symm
  · exact fun s hs => mem_map_of_mem (hplant s hs)
  · intro e he
    obtain ⟨hd, hseed⟩ := hentry e he
    rw [hd]
    exact ⟨.seed hseed, Nat.zero_le _⟩
  · exact pairwise_map.mpr (pairwise_of_forall fun _ _ => le_refl _)
  · intro e he front hfront
    have := (hentry e he).1
    omega

end Wenlan.BreadthFirst
