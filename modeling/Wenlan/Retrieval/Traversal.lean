import Wenlan.Support.BreadthFirst

/-!
# Expansion of the entity graph around the entities of a query
-/

namespace Wenlan.Retrieval

open BreadthFirst

/-- The neighbours of each entity; one the map has no entry for has none. -/
abbrev Adjacency := String → List String

def Adjacency.push (adj : Adjacency) (key value : String) : Adjacency :=
  fun node => if node = key then adj node ++ [value] else adj node

def Adjacency.insert (adj : Adjacency) (edge : String × String) : Adjacency :=
  if edge.1 = edge.2 ∨ edge.1 = "" ∨ edge.2 = "" then adj
  else (adj.push edge.1 edge.2).push edge.2 edge.1

def buildAdjacency (edges : List (String × String)) : Adjacency :=
  edges.foldl Adjacency.insert (fun _ => [])

def bfsKhop (adjacency : Adjacency) (seeds : List String) (maxHops maxNodes : Nat) : List String :=
  let named := seeds.filter (· ≠ "")
  let cap := max maxNodes named.dedup.length
  (search adjacency maxHops cap named).mergeSort (fun a b => decide (a ≤ b))

/-- An edge between two entities, whichever way it was stored. -/
def Linked (edges : List (String × String)) (u v : String) : Prop :=
  u ≠ v ∧ u ≠ "" ∧ v ≠ "" ∧ ((u, v) ∈ edges ∨ (v, u) ∈ edges)

theorem Adjacency.mem_push (adj : Adjacency) (key value u v : String) :
    v ∈ adj.push key value u ↔ v ∈ adj u ∨ u = key ∧ v = value := by
  unfold Adjacency.push
  split <;> simp_all

theorem mem_buildAdjacency (edges : List (String × String)) (u v : String) :
    v ∈ buildAdjacency edges u ↔ Linked edges u v := by
  suffices h : ∀ adj : Adjacency,
      v ∈ edges.foldl Adjacency.insert adj u ↔ v ∈ adj u ∨ Linked edges u v by
    simpa [buildAdjacency] using h fun _ => []
  induction edges with
  | nil => simp [Linked]
  | cons edge rest ih =>
    intro adj
    obtain ⟨a, b⟩ := edge
    rw [List.foldl_cons, ih, Adjacency.insert]
    unfold Linked
    split
    · grind
    · simp only [Adjacency.mem_push, List.mem_cons, Prod.mk.injEq]
      grind

/-- The expansion is the ball around the named seeds, cut off where the cap is reached. -/
theorem bfsKhop_ball (edges : List (String × String)) (seeds : List String)
    (maxHops maxNodes : Nat) : Ball (Linked edges) (seeds.filter (· ≠ "")) maxHops
      (max maxNodes (seeds.filter (· ≠ "")).dedup.length)
      (bfsKhop (buildAdjacency edges) seeds maxHops maxNodes) := by
  have h : Ball (fun u v => v ∈ buildAdjacency edges u) (seeds.filter (· ≠ "")) maxHops _ _ :=
    ball_search (le_max_right maxNodes (seeds.filter (· ≠ "")).dedup.length)
  rw [funext fun u => funext fun v => propext (mem_buildAdjacency edges u v)] at h
  exact h.perm (List.mergeSort_perm _ _)

/-- A seed without a name is passed by. -/
theorem unnamed_seed_dropped : ¬ ∀ seed ∈ [""], seed ∈ bfsKhop (buildAdjacency []) [""] 1 5 := by
  have hwalk : walk (buildAdjacency []) 1 5 ⟨[], []⟩ = [] := by rw [walk]
  simp [bfsKhop, search, plantSeeds, hwalk]

end Wenlan.Retrieval
