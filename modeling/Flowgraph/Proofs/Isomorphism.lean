import Mathlib.Data.List.Find
import Mathlib.Data.Set.Function
import Flowgraph.Proofs.Reachability

/-!
**The pre-order depends on the shape of the reachable part only.**

The depth-first walk keeps a stack and pushes every unvisited successor of each block it visits,
repeats included. Read off the blocks it has visited, it makes one choice at each step
(`nextVisit`): the first successor, below the bound and not yet visited, of the most recently
visited block that has one, or else the start block. So it is the walk `walkFrom` that makes
this choice until none is left (`depthFirst_eq_walkFrom`). The invariant that carries this is
that the stack and the successors of the visited blocks, the most recent first, agree once the
visited blocks are struck out of both.

The choice sees each successor list only up to repeats (`nextVisit_dedup`) and never compares
block indices. An `Isomorphism` maps the blocks reachable in one graph one to one onto those
reachable in another, the entry to the entry, and the successor list of each reachable block,
repeats removed, to that of its image. It carries each choice in the first graph to the same
choice in the second (`Isomorphism.nextVisit_map`), so:

* `Isomorphism.preorder_eq_map`: the pre-order of the second graph is the pre-order of the
  first, mapped block by block.
-/

namespace Flowgraph

namespace Graph

/-! ### The walk as a choice of the next block -/

/-- Block `s` is below the bound and not among the visited blocks. -/
def unvisited (bound : Nat) (visited : List Nat) (s : Nat) : Bool :=
  decide (s < bound) && !visited.contains s

/-- The block the depth-first walk visits after the blocks of `visited`, the most recent first:
the first unvisited successor of the most recently visited block that has one, or else the start
block if it is unvisited. -/
def nextVisit (next : Nat → List Nat) (bound start : Nat) (visited : List Nat) : Option Nat :=
  (visited.flatMap next ++ [start]).find? (unvisited bound visited)

section Choice

variable {next : Nat → List Nat} {bound start : Nat}

theorem unvisited_cons (n : Nat) (visited : List Nat) (s : Nat) :
    unvisited bound (n :: visited) s = (unvisited bound visited s && s != n) := by
  simp only [unvisited, List.contains_cons, Bool.not_or, bne]
  cases decide (s < bound) <;> cases (s == n) <;> cases visited.contains s <;> rfl

/-- Visiting `n` strikes it out of the unvisited blocks. -/
theorem filter_unvisited_cons (n : Nat) (visited l : List Nat) :
    l.filter (unvisited bound (n :: visited)) =
      (l.filter (unvisited bound visited)).filter (· != n) := by
  rw [List.filter_filter]
  exact List.filter_congr fun s _ => by rw [unvisited_cons, Bool.and_comm]

theorem unvisited_of_nextVisit {visited : List Nat} {x : Nat}
    (found : nextVisit next bound start visited = some x) :
    x < bound ∧ visited.contains x = false := by
  simpa [unvisited] using List.find?_some found

/-- The choice sees each successor list only up to repeats. -/
theorem nextVisit_dedup (next : Nat → List Nat) (bound start : Nat) (visited : List Nat) :
    nextVisit next bound start visited = nextVisit (fun b => dedup (next b)) bound start visited := by
  simp only [nextVisit, List.find?_append, List.find?_flatMap, find?_dedup]

end Choice

/-- Visits blocks in the order `nextVisit` chooses them until it chooses none; returns the
visited blocks, the most recent first. -/
def walkFrom (next : Nat → List Nat) (bound start : Nat) (visited : List Nat) : List Nat :=
  match _found : nextVisit next bound start visited with
  | none => visited
  | some x => walkFrom next bound start (x :: visited)
termination_by (pending bound visited).length
decreasing_by
  obtain ⟨below, fresh⟩ := unvisited_of_nextVisit _found
  exact length_pending_cons_lt below fresh

section Walk

variable {next : Nat → List Nat} {bound start : Nat} {visited : List Nat}

theorem walkFrom_of_none (none_found : nextVisit next bound start visited = none) :
    walkFrom next bound start visited = visited := by
  rw [walkFrom]
  split
  · rfl
  · rename_i found
    rw [none_found] at found
    cases found

theorem walkFrom_of_some {x : Nat} (found : nextVisit next bound start visited = some x) :
    walkFrom next bound start visited = walkFrom next bound start (x :: visited) := by
  rw [walkFrom]
  split
  · rename_i none_found
    rw [found] at none_found
    cases none_found
  · rename_i y chosen
    rw [found, Option.some_inj] at chosen
    rw [chosen]

/-- **The depth-first walk makes the choice of `nextVisit` at each step.** The stack, with the
visited blocks struck out, is the list of successors of the visited blocks, the most recent
first, then the start block, with the visited blocks struck out. -/
theorem depthFirst_eq_walkFrom {stack : List Nat}
    (frontier : stack.filter (unvisited bound visited) =
      (visited.flatMap next ++ [start]).filter (unvisited bound visited)) :
    depthFirst next bound visited stack = walkFrom next bound start visited := by
  fun_induction depthFirst next bound visited stack with
  | case1 visited =>
    -- nothing unvisited is left, so nothing is chosen
    have none_found : nextVisit next bound start visited = none := by
      rw [nextVisit, ← List.head?_filter, ← frontier]
      rfl
    rw [walkFrom_of_none none_found]
  | case2 visited n rest fresh ih =>
    have isFresh : unvisited bound visited n = true := by
      rw [unvisited, fresh.2]
      simp [fresh.1]
    -- the popped block is the first unvisited block of the stack, so it is the one chosen
    have found : nextVisit next bound start visited = some n := by
      rw [nextVisit, ← List.head?_filter, ← frontier, List.filter_cons_of_pos isFresh]
      rfl
    rw [walkFrom_of_some found]
    apply ih
    have restFrontier : rest.filter (unvisited bound (n :: visited)) =
        (visited.flatMap next ++ [start]).filter (unvisited bound (n :: visited)) := by
      rw [filter_unvisited_cons, filter_unvisited_cons, ← frontier, List.filter_cons_of_pos isFresh,
        List.filter_cons_of_neg (by simp)]
    have pushed : ((next n).filter fun s => !(n :: visited).contains s).filter
        (unvisited bound (n :: visited)) = (next n).filter (unvisited bound (n :: visited)) := by
      rw [List.filter_filter]
      exact List.filter_congr fun s _ => by simp [unvisited]
    rw [List.filter_append, pushed, restFrontier]
    simp only [List.flatMap_cons, List.append_assoc, List.filter_append]
  | case3 visited n rest stale ih =>
    apply ih
    have isStale : unvisited bound visited n = false := by simpa [unvisited] using stale
    rw [← frontier, List.filter_cons_of_neg (by simp [isStale])]

end Walk

theorem preorder_eq_walkFrom (g : Graph) :
    g.preorder = (walkFrom g.successors g.size g.entry []).reverse := by
  have frontier : [g.entry].filter (unvisited g.size []) =
      (([] : List Nat).flatMap g.successors ++ [g.entry]).filter (unvisited g.size []) := rfl
  rw [preorder, depthFirst_eq_walkFrom frontier]

/-! ### Isomorphic reachable parts -/

/-- An isomorphism of the reachable parts of two graphs, as rooted graphs with ordered successor
lists: `φ` maps the blocks reachable from the entry of `g₁` one to one onto those reachable from
the entry of `g₂`, the entry to the entry, and the successors of each reachable block, repeats
removed, in order, to those of its image. -/
structure Isomorphism (g₁ g₂ : Graph) (φ : Nat → Nat) : Prop where
  bijOn : Set.BijOn φ {b | g₁.Reaches g₁.entry b} {b | g₂.Reaches g₂.entry b}
  map_entry : φ g₁.entry = g₂.entry
  map_successors : ∀ b, g₁.Reaches g₁.entry b →
    dedup (g₂.successors (φ b)) = (dedup (g₁.successors b)).map φ

/-- The blocks a choice looks at, when the visited blocks are reachable, are reachable. -/
theorem reaches_of_mem_candidates {g : Graph} {next : Nat → List Nat}
    (within : ∀ v, ∀ s ∈ next v, g.Step v s) {visited : List Nat}
    (reached : ∀ v ∈ visited, g.Reaches g.entry v) {x : Nat}
    (member : x ∈ visited.flatMap next ++ [g.entry]) : g.Reaches g.entry x := by
  rcases List.mem_append.mp member with pushed | isEntry
  · obtain ⟨v, visitedV, successor⟩ := List.mem_flatMap.mp pushed
    exact (reached v visitedV).tail (within v x successor)
  · rw [List.mem_singleton.mp isEntry]
    exact Relation.ReflTransGen.refl

namespace Isomorphism

variable {g₁ g₂ : Graph} {φ : Nat → Nat}

section Transport

variable (wf₁ : g₁.WellFormed) (wf₂ : g₂.WellFormed) (iso : Isomorphism g₁ g₂ φ)
include wf₁ wf₂ iso

/-- A reachable block is unvisited exactly when its image is, among the images of the visited
blocks. -/
theorem unvisited_map {visited : List Nat} (reached : ∀ v ∈ visited, g₁.Reaches g₁.entry v)
    {s : Nat} (reach : g₁.Reaches g₁.entry s) :
    unvisited g₂.size (visited.map φ) (φ s) = unvisited g₁.size visited s := by
  have below₁ : s < g₁.size := wf₁.reaches_lt wf₁.entry_lt reach
  have below₂ : φ s < g₂.size := wf₂.reaches_lt wf₂.entry_lt (iso.bijOn.mapsTo reach)
  have injective : Set.InjOn φ {x | x ∈ s :: visited} := iso.bijOn.injOn.mono fun x member => by
    rcases List.mem_cons.mp member with rfl | visitedX
    · exact reach
    · exact reached x visitedX
  rw [unvisited, unvisited, contains_map_of_injOn injective]
  simp [below₁, below₂]

/-- **An isomorphism carries each choice of the walk to the same choice.** -/
theorem nextVisit_map {visited : List Nat} (reached : ∀ v ∈ visited, g₁.Reaches g₁.entry v) :
    nextVisit g₂.successors g₂.size g₂.entry (visited.map φ) =
      (nextVisit g₁.successors g₁.size g₁.entry visited).map φ := by
  rw [nextVisit_dedup g₂.successors, nextVisit_dedup g₁.successors, nextVisit, nextVisit]
  -- the candidates in the second graph are the images of those in the first
  have candidates : (visited.map φ).flatMap (fun b => dedup (g₂.successors b)) ++ [g₂.entry] =
      (visited.flatMap (fun b => dedup (g₁.successors b)) ++ [g₁.entry]).map φ := by
    rw [List.flatMap_map, List.map_append, List.map_flatMap, List.map_singleton, iso.map_entry]
    congr 1
    exact List.flatMap_congr fun v member => iso.map_successors v (reached v member)
  rw [candidates, List.find?_map]
  congr 1
  apply List.find?_congr
  intro x member
  exact unvisited_map wf₁ wf₂ iso reached
    (reaches_of_mem_candidates (fun v s successor => mem_dedup.mp successor) reached member)

/-- **An isomorphism carries the whole walk.** By induction along the walk in the first graph,
each step chosen in one graph being the image of the step chosen in the other. -/
theorem walkFrom_map (visited : List Nat) (reached : ∀ v ∈ visited, g₁.Reaches g₁.entry v) :
    walkFrom g₂.successors g₂.size g₂.entry (visited.map φ) =
      (walkFrom g₁.successors g₁.size g₁.entry visited).map φ := by
  fun_induction walkFrom g₁.successors g₁.size g₁.entry visited with
  | case1 visited none_found =>
    -- nothing is chosen in the second graph either
    rw [walkFrom_of_none]
    rw [nextVisit_map wf₁ wf₂ iso reached, none_found]
    rfl
  | case2 visited x found ih =>
    have reachX : g₁.Reaches g₁.entry x :=
      reaches_of_mem_candidates (fun v s successor => successor) reached
        (List.mem_of_find?_eq_some found)
    rw [walkFrom_of_some (x := φ x)]
    · exact ih fun v member => (List.mem_cons.mp member).elim (· ▸ reachX) (reached v)
    · rw [nextVisit_map wf₁ wf₂ iso reached, found]
      rfl

/-- **Isomorphic graphs have the same pre-order, block by block.** -/
theorem preorder_eq_map : g₂.preorder = g₁.preorder.map φ := by
  have run : walkFrom g₂.successors g₂.size g₂.entry [] =
      (walkFrom g₁.successors g₁.size g₁.entry []).map φ :=
    walkFrom_map wf₁ wf₂ iso [] fun v member => absurd member List.not_mem_nil
  rw [preorder_eq_walkFrom, preorder_eq_walkFrom, run, List.map_reverse]

end Transport

end Isomorphism

end Graph

end Flowgraph
