import Mathlib.Computability.StateTransition
import Flowgraph.Proofs.Dominance.Paths
import Flowgraph.Proofs.Reachability

/-!
**The worklist loop of `reachableFrom`, round by round.**

`Graph.closure` runs the worklist loop to its end as one recursive definition. Here one round of
the loop is a state transition `visitRound` on pairs (visited indices, worklist) that stops on an
empty worklist, so that running the loop is `StateTransition.eval visitRound`:

* `visitRound_measure_lt`: every round lowers the pair (number of indices below the bound not
  visited yet, length of the worklist) in lexicographic order. A round that visits a new index
  lowers the first component, although it may lengthen the worklist; a round that drops an index
  already visited keeps the first component and shortens the worklist;
* `closure_mem_eval`: run from any state, the rounds end, on an empty worklist and on the visited
  indices that `closure` returns;
* `reachableFrom_loop_terminates`: so for every graph and every start block the loop ends, and
  `reachableFrom` lists exactly the blocks reachable from the start, each once.
-/

namespace Flowgraph

namespace Graph

section Rounds

variable (next : Nat → List Nat) (bound : Nat)

/-- One round of the worklist loop: pops the most recently pushed index. An index below the bound
that is not visited yet is visited and its successors are pushed, the first successor on top;
any other index is dropped. An empty worklist ends the loop. -/
def visitRound : List Nat × List Nat → Option (List Nat × List Nat)
  | (_, []) => none
  | (visited, n :: rest) =>
    if n < bound ∧ visited.contains n = false then some (n :: visited, (next n).reverse ++ rest)
    else some (visited, rest)

/-- The measure of the loop: the number of indices below the bound not visited yet, then the
length of the worklist. -/
def roundMeasure (state : List Nat × List Nat) : Nat × Nat :=
  ((pending bound state.1).length, state.2.length)

variable {next bound}

/-- **Every round lowers the measure in lexicographic order.** -/
theorem visitRound_measure_lt {state state' : List Nat × List Nat}
    (round : visitRound next bound state = some state') :
    Prod.Lex (· < ·) (· < ·) (roundMeasure bound state') (roundMeasure bound state) := by
  obtain ⟨visited, _ | ⟨n, rest⟩⟩ := state
  · simp [visitRound] at round
  · by_cases fresh : n < bound ∧ visited.contains n = false
    · rw [visitRound, if_pos fresh, Option.some.injEq] at round
      subst round
      exact Prod.Lex.left _ _ (length_pending_cons_lt fresh.1 fresh.2)
    · rw [visitRound, if_neg fresh, Option.some.injEq] at round
      subst round
      exact Prod.Lex.right _ (Nat.lt_succ_self rest.length)

/-- **The rounds end where `closure` ends:** run from any state, the loop stops on an empty
worklist, holding the indices that `closure` returns. -/
theorem closure_mem_eval (visited work : List Nat) :
    (closure next bound visited work, []) ∈
      StateTransition.eval (visitRound next bound) (visited, work) := by
  fun_induction closure next bound visited work with
  | case1 visited => exact StateTransition.mem_eval.mpr ⟨.refl, rfl⟩
  | case2 visited n rest fresh ih =>
    have round : visitRound next bound (visited, n :: rest) =
        some (n :: visited, (next n).reverse ++ rest) := by
      rw [visitRound, if_pos fresh]
    rw [StateTransition.reaches_eval (.single round)]
    exact ih
  | case3 visited n rest stale ih =>
    have round : visitRound next bound (visited, n :: rest) = some (visited, rest) := by
      rw [visitRound, if_neg stale]
    rw [StateTransition.reaches_eval (.single round)]
    exact ih

end Rounds

/-- **The worklist loop ends and finds exactly the reachable blocks.** For every graph and every
start block, each round of the loop lowers (unvisited blocks, worklist length) in lexicographic
order; run from the start block alone, the rounds end on an empty worklist, with the blocks
reachable from the start visited; and `reachableFrom` lists exactly these blocks, each once. -/
theorem reachableFrom_loop_terminates {g : Graph} (wf : g.WellFormed) {s : Nat}
    (start : s < g.size) :
    (∀ state state', visitRound g.successors g.size state = some state' →
      Prod.Lex (· < ·) (· < ·) (roundMeasure g.size state') (roundMeasure g.size state)) ∧
    (∃ visited, (visited, []) ∈ StateTransition.eval (visitRound g.successors g.size) ([], [s]) ∧
      ∀ b, b ∈ visited ↔ g.Reaches s b) ∧
    (g.reachableFrom s).Nodup ∧ ∀ b, b ∈ g.reachableFrom s ↔ g.Reaches s b := by
  have bounded : ∀ v, ∀ x ∈ g.successors v, x < g.size := fun _ _ step => (wf.step_lt step).2
  refine ⟨fun _ _ round => visitRound_measure_lt round, ?_, ?_,
    fun b => mem_reachableFrom_iff wf start⟩
  · exact ⟨_, closure_mem_eval [] [s], fun b => mem_closure_iff bounded start⟩
  · exact (pairwise_reachableFrom g s).imp Nat.ne_of_lt

/-- The loop from the dead cycle of `loopWithDeadCycle` (block 3, a block with an edge to
itself) visits that block and the block it falls through to. -/
theorem reachableFrom_loop_terminates_of_loopWithDeadCycle :
    ∃ g, build loopWithDeadCycle .first = .ok g ∧ g.WellFormed ∧ 3 < g.size ∧
      ((∀ state state', visitRound g.successors g.size state = some state' →
        Prod.Lex (· < ·) (· < ·) (roundMeasure g.size state') (roundMeasure g.size state)) ∧
      (∃ visited,
        (visited, []) ∈ StateTransition.eval (visitRound g.successors g.size) ([], [3]) ∧
        ∀ b, b ∈ visited ↔ g.Reaches 3 b) ∧
      (g.reachableFrom 3).Nodup ∧ ∀ b, b ∈ g.reachableFrom 3 ↔ g.Reaches 3 b) := by
  obtain ⟨g, built⟩ : ∃ g, build loopWithDeadCycle .first = .ok g := ⟨_, rfl⟩
  have wf := wellFormed_of_build built
  have size : g.size = 5 := by
    have sizes : (build loopWithDeadCycle .first).map size = .ok 5 := rfl
    rw [built] at sizes
    exact Except.ok.inj sizes
  have below : 3 < g.size := by omega
  exact ⟨g, built, wf, below, reachableFrom_loop_terminates wf below⟩

end Graph

end Flowgraph
