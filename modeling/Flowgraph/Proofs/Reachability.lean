import Mathlib.Logic.Relation
import Mathlib.Data.List.Nodup
import Flowgraph.Graph.Walk
import Flowgraph.Proofs.Paths

/-!
**What the two walks over a graph compute.**

* `mem_closure_iff`: the worklist closure from a start below the bound holds exactly the
  indices reachable from the start, when every successor is below the bound;
* `mem_reachableFrom_iff`: so `reachableFrom` lists exactly the blocks reachable from its start,
  in increasing order;
* `mem_preorder_iff`, `nodup_preorder`: the pre-order lists every block reachable from the entry
  block, each once, the entry block first;
* `exists_earlier_predecessor`: every block of the pre-order other than the entry block is a
  successor of a block listed before it;
* `exists_walk_below`: so a walk from the entry block reaches each block of the pre-order through
  blocks listed before it only.

Both walks keep two invariants from one popped index to the next: every visited index and every
index of the worklist is reachable from the start (`Reached`), and every successor below the
bound of a visited index is visited or waits in the worklist (`Closed`). When the worklist is
empty the visited indices are closed under successors.
-/

namespace Flowgraph

namespace Graph

section Invariants

variable (next : Nat → List Nat) (bound : Nat)

/-- Every visited index and every index of the worklist is reachable from `start`. -/
def Reached (start : Nat) (visited work : List Nat) : Prop :=
  ∀ x, x ∈ visited ∨ x ∈ work → Relation.ReflTransGen (fun a b => b ∈ next a) start x

/-- Every successor below the bound of a visited index is visited or waits in the worklist. -/
def Closed (visited work : List Nat) : Prop :=
  ∀ v ∈ visited, ∀ s ∈ next v, s < bound → s ∈ visited ∨ s ∈ work

variable {next bound}

theorem Reached.pop {start n : Nat} {visited rest : List Nat}
    (reached : Reached next start visited (n :: rest)) : Reached next start visited rest :=
  fun x member => reached x (member.imp_right (List.mem_cons_of_mem n))

theorem Reached.push {start n : Nat} {visited rest pushed : List Nat}
    (reached : Reached next start visited (n :: rest)) (successors : ∀ s ∈ pushed, s ∈ next n) :
    Reached next start (n :: visited) (pushed ++ rest) := by
  have toN := reached n (.inr List.mem_cons_self)
  rintro x (visited | waiting)
  · rcases List.mem_cons.mp visited with rfl | old
    · exact toN
    · exact reached x (.inl old)
  · rcases List.mem_append.mp waiting with new | waiting
    · exact toN.tail (successors x new)
    · exact reached x (.inr (List.mem_cons_of_mem n waiting))

/-- Dropping a popped index that is visited or out of bounds keeps the worklist closed. -/
theorem Closed.pop {n : Nat} {visited rest : List Nat} (closed : Closed next bound visited (n :: rest))
    (stale : n < bound → n ∈ visited) : Closed next bound visited rest := by
  intro v member s successor below
  rcases closed v member s successor below with inVisited | waiting
  · exact .inl inVisited
  · rcases List.mem_cons.mp waiting with rfl | waiting
    · exact .inl (stale below)
    · exact .inr waiting

/-- Visiting a popped index and pushing its successors that are not visited yet keeps the
worklist closed. -/
theorem Closed.push {n : Nat} {visited rest pushed : List Nat}
    (closed : Closed next bound visited (n :: rest))
    (covered : ∀ s ∈ next n, s ∈ n :: visited ∨ s ∈ pushed) :
    Closed next bound (n :: visited) (pushed ++ rest) := by
  intro v member s successor below
  rcases List.mem_cons.mp member with rfl | old
  · rcases covered s successor with inVisited | new
    · exact .inl inVisited
    · exact .inr (List.mem_append_left rest new)
  · rcases closed v old s successor below with inVisited | waiting
    · exact .inl (List.mem_cons_of_mem n inVisited)
    · rcases List.mem_cons.mp waiting with rfl | waiting
      · exact .inl List.mem_cons_self
      · exact .inr (List.mem_append_right pushed waiting)

/-- Once the worklist is closed, everything reachable from a visited index is visited. -/
theorem Closed.mem_of_reaches {visited : List Nat} (closed : Closed next bound visited [])
    (bounded : ∀ v, ∀ s ∈ next v, s < bound) {a x : Nat} (start : a ∈ visited)
    (reach : Relation.ReflTransGen (fun a b => b ∈ next a) a x) : x ∈ visited := by
  induction reach with
  | refl => exact start
  | tail _ successor ih =>
    exact (closed _ ih _ successor (bounded _ _ successor)).resolve_right List.not_mem_nil

end Invariants

/-! ### The worklist closure -/

section Closure

variable {next : Nat → List Nat} {bound : Nat}

theorem reached_closure {start : Nat} {visited work : List Nat}
    (reached : Reached next start visited work) :
    Reached next start (closure next bound visited work) [] := by
  fun_induction closure next bound visited work with
  | case1 visited => exact fun x member => reached x (.inl (member.resolve_right List.not_mem_nil))
  | case2 visited n rest _ ih =>
    exact ih (reached.push fun s pushed => List.mem_reverse.mp pushed)
  | case3 visited n rest _ ih => exact ih reached.pop

theorem closed_closure {visited work : List Nat} (closed : Closed next bound visited work) :
    visited ⊆ closure next bound visited work ∧
      (∀ w ∈ work, w < bound → w ∈ closure next bound visited work) ∧
      Closed next bound (closure next bound visited work) [] := by
  fun_induction closure next bound visited work with
  | case1 visited =>
    exact ⟨List.Subset.refl visited, fun _ member => absurd member List.not_mem_nil, closed⟩
  | case2 visited n rest _ ih =>
    obtain ⟨sub, pending, closedAtEnd⟩ :=
      ih (closed.push fun s successor => .inr (List.mem_reverse.mpr successor))
    refine ⟨fun v member => sub (List.mem_cons_of_mem n member), ?_, closedAtEnd⟩
    intro w member below
    rcases List.mem_cons.mp member with rfl | waiting
    · exact sub List.mem_cons_self
    · exact pending w (List.mem_append_right _ waiting) below
  | case3 visited n rest stale ih =>
    have visitedN : n < bound → n ∈ visited := fun below => by
      simpa [below] using stale
    obtain ⟨sub, pending, closedAtEnd⟩ := ih (closed.pop visitedN)
    refine ⟨sub, ?_, closedAtEnd⟩
    intro w member below
    rcases List.mem_cons.mp member with rfl | waiting
    · exact sub (visitedN below)
    · exact pending w waiting below

/-- **The worklist closure holds exactly the reachable indices**, when no successor leaves the
bound. -/
theorem mem_closure_iff (bounded : ∀ v, ∀ s ∈ next v, s < bound) {start x : Nat}
    (below : start < bound) :
    x ∈ closure next bound [] [start] ↔ Relation.ReflTransGen (fun a b => b ∈ next a) start x := by
  constructor
  · intro member
    have reached : Reached next start [] [start] := by
      rintro y (inVisited | inWork)
      · exact absurd inVisited List.not_mem_nil
      · rw [List.mem_singleton.mp inWork]
    exact reached_closure reached x (.inl member)
  · intro reach
    have closed : Closed next bound [] [start] := fun v member => absurd member List.not_mem_nil
    obtain ⟨_, pending, closedAtEnd⟩ := closed_closure closed
    exact closedAtEnd.mem_of_reaches bounded (pending start List.mem_cons_self below) reach

end Closure

/-- **`reachableFrom` lists exactly the blocks reachable from its start.** -/
theorem mem_reachableFrom_iff {g : Graph} (wf : g.WellFormed) {a b : Nat} (start : a < g.size) :
    b ∈ g.reachableFrom a ↔ g.Reaches a b := by
  have bounded : ∀ v, ∀ s ∈ g.successors v, s < g.size := fun _ _ step => (wf.step_lt step).2
  simp only [reachableFrom, List.mem_filter, List.mem_range, List.contains_iff_mem,
    mem_closure_iff bounded start]
  exact ⟨fun ⟨_, reach⟩ => reach, fun reach => ⟨wf.reaches_lt start reach, reach⟩⟩

theorem pairwise_reachableFrom (g : Graph) (a : Nat) : (g.reachableFrom a).Pairwise (· < ·) :=
  List.pairwise_lt_range.filter _

/-! ### The depth-first walk -/

/-- Every index of a visit order, most recent first, is the start or a successor of an index
visited before it. -/
def Discovered (next : Nat → List Nat) (start : Nat) : List Nat → Prop
  | [] => True
  | x :: earlier => (x = start ∨ ∃ v ∈ earlier, x ∈ next v) ∧ Discovered next start earlier

section DepthFirst

variable {next : Nat → List Nat} {bound : Nat}

theorem reached_depthFirst {start : Nat} {visited stack : List Nat}
    (reached : Reached next start visited stack) :
    Reached next start (depthFirst next bound visited stack) [] := by
  fun_induction depthFirst next bound visited stack with
  | case1 visited => exact fun x member => reached x (.inl (member.resolve_right List.not_mem_nil))
  | case2 visited n rest _ ih =>
    exact ih (reached.push fun s pushed => (List.mem_filter.mp pushed).1)
  | case3 visited n rest _ ih => exact ih reached.pop

theorem closed_depthFirst {visited stack : List Nat} (closed : Closed next bound visited stack) :
    visited ⊆ depthFirst next bound visited stack ∧
      (∀ w ∈ stack, w < bound → w ∈ depthFirst next bound visited stack) ∧
      Closed next bound (depthFirst next bound visited stack) [] := by
  fun_induction depthFirst next bound visited stack with
  | case1 visited =>
    exact ⟨List.Subset.refl visited, fun _ member => absurd member List.not_mem_nil, closed⟩
  | case2 visited n rest _ ih =>
    have covered : ∀ s ∈ next n, s ∈ n :: visited ∨
        s ∈ (next n).filter fun s => !(n :: visited).contains s := by
      intro s successor
      by_cases seen : s ∈ n :: visited
      · exact .inl seen
      · exact .inr (List.mem_filter.mpr ⟨successor, by simpa using seen⟩)
    obtain ⟨sub, pending, closedAtEnd⟩ := ih (closed.push covered)
    refine ⟨fun v member => sub (List.mem_cons_of_mem n member), ?_, closedAtEnd⟩
    intro w member below
    rcases List.mem_cons.mp member with rfl | waiting
    · exact sub List.mem_cons_self
    · exact pending w (List.mem_append_right _ waiting) below
  | case3 visited n rest stale ih =>
    have visitedN : n < bound → n ∈ visited := fun below => by
      simpa [below] using stale
    obtain ⟨sub, pending, closedAtEnd⟩ := ih (closed.pop visitedN)
    refine ⟨sub, ?_, closedAtEnd⟩
    intro w member below
    rcases List.mem_cons.mp member with rfl | waiting
    · exact sub (visitedN below)
    · exact pending w waiting below

theorem nodup_depthFirst {visited stack : List Nat} (distinct : visited.Nodup) :
    (depthFirst next bound visited stack).Nodup := by
  fun_induction depthFirst next bound visited stack with
  | case1 visited => exact distinct
  | case2 visited n rest fresh ih =>
    exact ih (List.nodup_cons.mpr ⟨by simpa using fresh.2, distinct⟩)
  | case3 visited n rest _ ih => exact ih distinct

theorem suffix_depthFirst {visited stack : List Nat} :
    visited <:+ depthFirst next bound visited stack := by
  fun_induction depthFirst next bound visited stack with
  | case1 visited => exact List.suffix_refl visited
  | case2 visited n rest _ ih => exact (List.suffix_cons n visited).trans ih
  | case3 visited n rest _ ih => exact ih

/-- Every index the walk records was pushed by a block recorded before it, or is the start. -/
theorem discovered_depthFirst {start : Nat} {visited stack : List Nat}
    (discovered : Discovered next start visited)
    (waiting : ∀ x ∈ stack, x = start ∨ ∃ v ∈ visited, x ∈ next v) :
    Discovered next start (depthFirst next bound visited stack) := by
  fun_induction depthFirst next bound visited stack with
  | case1 visited => exact discovered
  | case2 visited n rest _ ih =>
    apply ih ⟨waiting n List.mem_cons_self, discovered⟩
    intro x member
    rcases List.mem_append.mp member with pushed | old
    · exact .inr ⟨n, List.mem_cons_self, (List.mem_filter.mp pushed).1⟩
    · rcases waiting x (List.mem_cons_of_mem n old) with isStart | ⟨v, recorded, successor⟩
      · exact .inl isStart
      · exact .inr ⟨v, List.mem_cons_of_mem n recorded, successor⟩
  | case3 visited n rest _ ih =>
    exact ih discovered fun x member => waiting x (List.mem_cons_of_mem n member)

end DepthFirst

/-- In a visit order without repetition, every index other than the start follows an index
placed before it in the order of visits. -/
theorem Discovered.exists_earlier {next : Nat → List Nat} {start : Nat} {order : List Nat}
    (discovered : Discovered next start order) (distinct : order.Nodup) {x : Nat}
    (member : x ∈ order) :
    x = start ∨ ∃ v, x ∈ next v ∧ order.reverse.idxOf v < order.reverse.idxOf x := by
  induction order with
  | nil => exact absurd member List.not_mem_nil
  | cons y earlier ih =>
    obtain ⟨head, rest⟩ := discovered
    obtain ⟨fresh, distinct⟩ := List.nodup_cons.mp distinct
    have freshReverse : y ∉ earlier.reverse := by simpa using fresh
    have idxOfY : (earlier.reverse ++ [y]).idxOf y = earlier.length := by
      rw [List.idxOf_append, if_neg freshReverse]
      simp
    rw [List.reverse_cons]
    rcases List.mem_cons.mp member with rfl | old
    · rcases head with isStart | ⟨v, recorded, successor⟩
      · exact .inl isStart
      · have recordedReverse : v ∈ earlier.reverse := List.mem_reverse.mpr recorded
        refine .inr ⟨v, successor, ?_⟩
        rw [idxOfY, List.idxOf_append, if_pos recordedReverse]
        simpa using List.idxOf_lt_length_of_mem recordedReverse
    · rcases ih rest distinct old with isStart | ⟨v, successor, before⟩
      · exact .inl isStart
      · have oldReverse : x ∈ earlier.reverse := List.mem_reverse.mpr old
        have recordedReverse : v ∈ earlier.reverse := by
          rw [← List.idxOf_lt_length_iff]
          exact Nat.lt_trans before (List.idxOf_lt_length_of_mem oldReverse)
        refine .inr ⟨v, successor, ?_⟩
        rw [List.idxOf_append, List.idxOf_append, if_pos recordedReverse, if_pos oldReverse]
        exact before

/-! ### The pre-order -/

theorem nodup_preorder (g : Graph) : g.preorder.Nodup :=
  List.nodup_reverse.mpr (nodup_depthFirst List.nodup_nil)

/-- **The pre-order lists exactly the blocks reachable from the entry block.** -/
theorem mem_preorder_iff {g : Graph} (wf : g.WellFormed) {b : Nat} :
    b ∈ g.preorder ↔ g.Reaches g.entry b := by
  rw [preorder, List.mem_reverse]
  constructor
  · intro member
    have reached : Reached g.successors g.entry [] [g.entry] := by
      rintro y (inVisited | inWork)
      · exact absurd inVisited List.not_mem_nil
      · rw [List.mem_singleton.mp inWork]
    exact reached_depthFirst reached b (.inl member)
  · intro reach
    have bounded : ∀ v, ∀ s ∈ g.successors v, s < g.size := fun _ _ step => (wf.step_lt step).2
    have closed : Closed g.successors g.size [] [g.entry] :=
      fun v member => absurd member List.not_mem_nil
    obtain ⟨_, pending, closedAtEnd⟩ := closed_depthFirst closed
    exact closedAtEnd.mem_of_reaches bounded (pending _ List.mem_cons_self wf.entry_lt) reach

/-- The entry block comes first in the pre-order. -/
theorem preorder_eq_cons {g : Graph} (wf : g.WellFormed) :
    ∃ rest, g.preorder = g.entry :: rest := by
  have first : depthFirst g.successors g.size [] [g.entry] =
      depthFirst g.successors g.size [g.entry]
        ((g.successors g.entry).filter fun s => !([g.entry] : List Nat).contains s) := by
    rw [depthFirst, dif_pos ⟨wf.entry_lt, rfl⟩, List.append_nil]
  obtain ⟨later, split⟩ : [g.entry] <:+ depthFirst g.successors g.size [] [g.entry] := by
    rw [first]
    exact suffix_depthFirst
  refine ⟨later.reverse, ?_⟩
  rw [preorder, ← split, List.reverse_append]
  rfl

/-- **Every block of the pre-order other than the entry block is a successor of a block listed
before it.** -/
theorem exists_earlier_predecessor (g : Graph) {b : Nat} (member : b ∈ g.preorder)
    (other : b ≠ g.entry) :
    ∃ p, g.Step p b ∧ g.preorder.idxOf p < g.preorder.idxOf b := by
  have initial : Discovered g.successors g.entry [] := trivial
  have discovered : Discovered g.successors g.entry
      (depthFirst g.successors g.size [] [g.entry]) := by
    apply discovered_depthFirst initial
    intro x member
    exact .inl (List.mem_singleton.mp member)
  rw [preorder, List.mem_reverse] at member
  rcases discovered.exists_earlier (nodup_depthFirst List.nodup_nil) member with
    isEntry | ⟨p, successor, before⟩
  · exact absurd isEntry other
  · exact ⟨p, successor, before⟩

/-- **A walk from the entry block reaches each block of the pre-order through blocks listed
before it.** -/
theorem exists_walk_below (g : Graph) {b : Nat} (member : b ∈ g.preorder) :
    ∃ path, g.Walk g.entry b path ∧ ∀ x ∈ path, x = b ∨ g.preorder.idxOf x < g.preorder.idxOf b := by
  induction hb : g.preorder.idxOf b using Nat.strongRecOn generalizing b with
  | _ k ih =>
    by_cases isEntry : b = g.entry
    · subst isEntry
      exact ⟨[g.entry], .start, fun x inPath => .inl (List.mem_singleton.mp inPath)⟩
    · obtain ⟨p, step, before⟩ := g.exists_earlier_predecessor member isEntry
      have listed : p ∈ g.preorder := by
        rw [← List.idxOf_lt_length_iff]
        exact Nat.lt_trans before (List.idxOf_lt_length_of_mem member)
      obtain ⟨path, walk, below⟩ := ih _ (hb ▸ before) listed rfl
      refine ⟨path ++ [b], walk.step step, fun x inPath => ?_⟩
      rcases List.mem_append.mp inPath with earlier | last
      · right
        rcases below x earlier with rfl | lower
        · exact hb ▸ before
        · exact hb ▸ Nat.lt_trans lower before
      · exact .inl (List.mem_singleton.mp last)

end Graph

end Flowgraph
