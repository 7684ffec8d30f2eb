import Mathlib.Data.List.Sublists
import Flowgraph.Proofs.Isomorphism

/-!
**The stack walk is the recursive depth-first walk.**

The recursive depth-first walk visits a block, then runs on each of its successors in order that
is not visited yet, each such run ending before the next successor is looked at (`visitFrom`). The
pre-order is computed instead with an explicit stack: a visited block pushes its successors not
visited yet so that they pop in order, and a block that pops when it is visited already is
skipped.

* `depthFirst_eq_of_filter_eq`: the stack walk sees its stack only through the unvisited blocks on
  it, so stale entries change nothing;
* `depthFirst_cons_eq_visitFrom`: popping a block and running on is the recursive run from that
  block, followed by the walk over the rest of the stack. The part of the stack above the rest
  holds exactly the calls the recursion has still to make;
* `preorder_eq_recursivePreorder`: so the pre-order of every graph is its recursive depth-first
  pre-order, and lists each block once.
-/

namespace Flowgraph

namespace Graph

theorem length_pending_le_of_subset {bound : Nat} {visited more : List Nat}
    (sub : visited ⊆ more) : (pending bound more).length ≤ (pending bound visited).length := by
  refine (List.monotone_filter_right _ fun x unseen => ?_).length_le
  simp only [Bool.not_eq_eq_eq_not, Bool.not_true, List.contains_iff_mem, Bool.eq_false_iff,
    ne_eq] at unseen ⊢
  exact fun member => unseen (sub member)

/-- The recursive depth-first walk from block `i`, given the blocks visited so far, the most
recent first. A block below the bound that is not visited yet is visited, then the walk runs on
each of its successors in order, from the blocks visited by then; any other block is passed over.
Returns the visited blocks, which only grow. -/
def visitFrom (next : Nat → List Nat) (bound : Nat) (visited : List Nat) (i : Nat) :
    {after : List Nat // visited ⊆ after} :=
  if _fresh : i < bound ∧ visited.contains i = false then
    let last := (next i).foldl
      (fun (acc : {after : List Nat // i :: visited ⊆ after}) s =>
        ⟨(visitFrom next bound acc.1 s).1, List.Subset.trans acc.2 (visitFrom next bound acc.1 s).2⟩)
      ⟨i :: visited, List.Subset.refl _⟩
    ⟨last.1, List.Subset.trans (List.subset_cons_self i visited) last.2⟩
  else ⟨visited, List.Subset.refl _⟩
termination_by (pending bound visited).length
decreasing_by
  all_goals
    exact Nat.lt_of_le_of_lt (length_pending_le_of_subset acc.2)
      (length_pending_cons_lt _fresh.1 _fresh.2)

section Walks

variable {next : Nat → List Nat} {bound : Nat}

/-- The test both walks make before they visit a block. -/
theorem unvisited_eq_true_iff {visited : List Nat} {s : Nat} :
    unvisited bound visited s = true ↔ s < bound ∧ visited.contains s = false := by
  simp [unvisited]

/-! ### The recursive walk -/

theorem visitFrom_of_stale {visited : List Nat} {i : Nat}
    (stale : unvisited bound visited i = false) :
    (visitFrom next bound visited i).1 = visited := by
  rw [visitFrom, dif_neg (mt unvisited_eq_true_iff.mpr (Bool.eq_false_iff.mp stale))]

/-- Running on the successors one after another, with the proof that the visited blocks only
grow dropped. -/
theorem foldl_visitFrom_val {start : List Nat} (l : List Nat)
    (acc : {after : List Nat // start ⊆ after}) :
    (l.foldl (fun (acc : {after : List Nat // start ⊆ after}) s =>
        ⟨(visitFrom next bound acc.1 s).1, List.Subset.trans acc.2 (visitFrom next bound acc.1 s).2⟩)
      acc).1 = l.foldl (fun after s => (visitFrom next bound after s).1) acc.1 := by
  induction l generalizing acc with
  | nil => rfl
  | cons s rest ih => exact ih _

/-- **The recursive walk visits a fresh block, then runs on its successors in order.** -/
theorem visitFrom_of_fresh {visited : List Nat} {i : Nat}
    (fresh : unvisited bound visited i = true) :
    (visitFrom next bound visited i).1 =
      (next i).foldl (fun after s => (visitFrom next bound after s).1) (i :: visited) := by
  rw [visitFrom, dif_pos (unvisited_eq_true_iff.mp fresh)]
  exact foldl_visitFrom_val _ _

/-! ### The stack walk -/

theorem depthFirst_cons_of_stale {visited rest : List Nat} {n : Nat}
    (stale : unvisited bound visited n = false) :
    depthFirst next bound visited (n :: rest) = depthFirst next bound visited rest := by
  rw [depthFirst, dif_neg (mt unvisited_eq_true_iff.mpr (Bool.eq_false_iff.mp stale))]

theorem depthFirst_cons_of_fresh {visited rest : List Nat} {n : Nat}
    (fresh : unvisited bound visited n = true) :
    depthFirst next bound visited (n :: rest) =
      depthFirst next bound (n :: visited)
        ((next n).filter (fun s => !(n :: visited).contains s) ++ rest) := by
  rw [depthFirst, dif_pos (unvisited_eq_true_iff.mp fresh)]

/-- Entries that are visited or out of bounds are popped and dropped. -/
theorem depthFirst_append_of_stale {visited : List Nat} {stale : List Nat}
    (all : ∀ x ∈ stale, unvisited bound visited x = false) (rest : List Nat) :
    depthFirst next bound visited (stale ++ rest) = depthFirst next bound visited rest := by
  induction stale with
  | nil => rfl
  | cons x more ih =>
    rw [List.cons_append, depthFirst_cons_of_stale (all x List.mem_cons_self)]
    exact ih fun y member => all y (List.mem_cons_of_mem x member)

/-- **The stack walk sees its stack only through the unvisited blocks on it.** By induction along
the walk from the first stack: the second one pops its stale entries up to the same fresh block,
after which both push the same successors onto stacks that again agree on their unvisited
blocks. -/
theorem depthFirst_eq_of_filter_eq {visited first second : List Nat}
    (same : first.filter (unvisited bound visited) = second.filter (unvisited bound visited)) :
    depthFirst next bound visited first = depthFirst next bound visited second := by
  fun_induction depthFirst next bound visited first generalizing second with
  | case1 visited =>
    -- every entry of the second stack is stale, and popping them all ends the walk
    have all := List.filter_eq_nil_iff.mp same.symm
    have dropped : depthFirst next bound visited (second ++ []) = depthFirst next bound visited [] :=
      depthFirst_append_of_stale (fun x member => by simpa using all x member) []
    rw [List.append_nil] at dropped
    rw [dropped, depthFirst]
  | case2 visited n rest fresh ih =>
    have isFresh : unvisited bound visited n = true := unvisited_eq_true_iff.mpr fresh
    rw [List.filter_cons_of_pos isFresh] at same
    obtain ⟨stale, later, rfl, allStale, -, laterSame⟩ := List.filter_eq_cons_iff.mp same.symm
    have popped : depthFirst next bound visited (stale ++ n :: later) =
        depthFirst next bound visited (n :: later) :=
      depthFirst_append_of_stale (fun x member => by simpa using allStale x member) _
    rw [popped, depthFirst_cons_of_fresh isFresh]
    apply ih
    simp only [List.filter_append, filter_unvisited_cons, laterSame]
  | case3 visited n rest stale ih =>
    have isStale : unvisited bound visited n = false :=
      Bool.eq_false_iff.mpr (mt unvisited_eq_true_iff.mp stale)
    rw [List.filter_cons_of_neg (by simp [isStale])] at same
    exact ih same

/-- A visited block may push its visited successors too: they pop stale. -/
theorem depthFirst_filter_append (visited pushed rest : List Nat) :
    depthFirst next bound visited (pushed.filter (fun s => !visited.contains s) ++ rest) =
      depthFirst next bound visited (pushed ++ rest) := by
  apply depthFirst_eq_of_filter_eq
  rw [List.filter_append, List.filter_append, List.filter_filter]
  congr 1
  exact List.filter_congr fun s _ => by
    simp only [unvisited]
    cases visited.contains s <;> simp

/-- **A recursive run is a segment of the stack walk.** Popping block `i` and running on is the
recursive run from `i` followed by the walk over the rest of the stack. By strong induction on the
number of unvisited blocks: after `i` is visited, the stack above the rest holds its successors,
and each of them, popped in turn, is again a recursive run from fewer unvisited blocks. -/
theorem depthFirst_cons_eq_visitFrom (visited : List Nat) (i : Nat) (rest : List Nat) :
    depthFirst next bound visited (i :: rest) =
      depthFirst next bound (visitFrom next bound visited i).1 rest := by
  induction unseen : (pending bound visited).length using Nat.strongRecOn
    generalizing visited i rest with
  | _ k ih =>
    cases fresh : unvisited bound visited i with
    | false => rw [depthFirst_cons_of_stale fresh, visitFrom_of_stale fresh]
    | true =>
      have isFresh := unvisited_eq_true_iff.mp fresh
      rw [depthFirst_cons_of_fresh fresh, depthFirst_filter_append, visitFrom_of_fresh fresh]
      -- the successors of `i` run one after another, each from at least `i` and `visited`
      have loop : ∀ (pushed : List Nat) (after : List Nat), i :: visited ⊆ after →
          depthFirst next bound after (pushed ++ rest) =
            depthFirst next bound
              (pushed.foldl (fun after s => (visitFrom next bound after s).1) after) rest := by
        intro pushed
        induction pushed with
        | nil => exact fun _ _ => rfl
        | cons s more loopIh =>
          intro after grown
          have fewer : (pending bound after).length < k := unseen ▸
            Nat.lt_of_le_of_lt (length_pending_le_of_subset grown)
              (length_pending_cons_lt isFresh.1 isFresh.2)
          rw [List.cons_append, ih _ fewer after s (more ++ rest) rfl, List.foldl_cons]
          exact loopIh _ (List.Subset.trans grown (visitFrom next bound after s).2)
      exact loop (next i) (i :: visited) (List.Subset.refl _)

end Walks

/-- The recursive depth-first pre-order of a graph: the blocks the recursive walk from the entry
block visits, in the order of their visits. -/
def recursivePreorder (g : Graph) : List Nat :=
  (visitFrom g.successors g.size [] g.entry).1.reverse

/-- **The pre-order of every graph is its recursive depth-first pre-order**: the entry block, then
the recursive walks from each of its successors in order that is not visited yet, no block
visited twice. In particular it lists each block once. -/
theorem preorder_eq_recursivePreorder (g : Graph) :
    g.preorder = g.recursivePreorder ∧ g.preorder.Nodup := by
  refine ⟨?_, nodup_preorder g⟩
  rw [preorder, recursivePreorder, depthFirst_cons_eq_visitFrom, depthFirst]

end Graph

end Flowgraph
