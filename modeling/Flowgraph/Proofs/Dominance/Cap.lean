import Flowgraph.Proofs.Dominance.Paths

/-!
**A pass cap is met exactly when it allows the passes of the uncapped run.**

Before each pass the count of passes so far is checked against the cap; when it has reached the
cap the passes fault, and otherwise the pass runs. The last pass, which changes nothing, counts.

* `lt_passes_of_iterate`: a run that ends without fault makes at least one pass;
* `iterate_eq_of_ok`: a run that ends without fault after `p` passes ends the same way whenever
  the cap allows `p` passes, and with a smaller cap faults once the cap is reached;
* `dominators_capped`: for every well formed graph, either mode and every integer cap `c`, zero
  and negative ones included, with `P` the passes of the run under the default cap: the capped
  run faults with the convergence fault, after `max c 0` passes, exactly when `c < P`, and
  otherwise gives the same run, with the same sets, passes and history.
-/

namespace Flowgraph

namespace Dominance

variable {step : Array (List Nat) → Array (List Nat) × Bool} {blocks : Nat}

/-- A run that ends without fault makes at least one pass. -/
theorem lt_passes_of_iterate {fuel passes : Nat} {sets : Array (List Nat)}
    {history : List (List Nat)} {run : DominatorRun}
    (ran : iterate step blocks fuel passes sets history = .ok run) : passes < run.passes := by
  induction fuel generalizing passes sets history with
  | zero => cases ran
  | succ fuel ih =>
    rw [iterate] at ran
    generalize step sets = result at ran
    obtain ⟨next, changed⟩ := result
    cases changed with
    | true => exact Nat.lt_of_succ_lt (ih ran)
    | false =>
      cases ran
      exact Nat.lt_succ_self passes

/-- **The cap decides only whether the run gets to its end.** A run that ends without fault after
`run.passes` passes, from `passes` done, ends the same way with any fuel that lets it get there,
and with less fuel faults after the passes the fuel allows. By induction on the fuel of the first
run, the two runs making the same passes until one of them stops. -/
theorem iterate_eq_of_ok {fuel passes : Nat} {sets : Array (List Nat)}
    {history : List (List Nat)} {run : DominatorRun}
    (ran : iterate step blocks fuel passes sets history = .ok run) (allowed : Nat) :
    iterate step blocks allowed passes sets history =
      if passes + allowed < run.passes then .error (.noConvergence (passes + allowed) blocks)
      else .ok run := by
  induction fuel generalizing passes sets history allowed with
  | zero => cases ran
  | succ fuel ih =>
    have more := lt_passes_of_iterate ran
    cases allowed with
    | zero =>
      -- the cap is reached before the first pass
      rw [if_pos (by omega)]
      rfl
    | succ allowed =>
      rw [iterate] at ran ⊢
      generalize step sets = result at ran ⊢
      obtain ⟨next, changed⟩ := result
      cases changed with
      | true =>
        simp only [↓reduceIte] at ran ⊢
        rw [ih ran allowed, show passes + 1 + allowed = passes + (allowed + 1) by omega]
      | false =>
        -- the pass is the quiet one, and the run ends with it under either cap
        simp only [Bool.false_eq_true, ↓reduceIte] at ran ⊢
        cases ran
        rw [if_neg (by dsimp only; omega)]

end Dominance

namespace Graph

open Dominance

variable {g : Graph}

theorem dominators_some (restrict : Bool) (cap : Int) :
    g.dominators restrict (some cap) =
      iterate (sweep (g.scopedPredecessors (g.dominatorScope restrict)) g.entry
          (g.dominatorScope restrict)) g.size cap.toNat 0
        (initial g.size g.entry (g.dominatorScope restrict))
        [sizes (initial g.size g.entry (g.dominatorScope restrict))] := by
  simp only [dominators, Option.getD_some]

/-- **A pass cap faults exactly when it is below the passes the uncapped run makes.** For every
well formed graph and either mode, let `P` be the passes of the run under the default cap. Under
a cap `c`, any integer, the passes fault with the convergence fault, after `max c 0` passes, when
`c < P`; otherwise they end in the same run: the same sets, the same `P` passes and the same
history. -/
theorem dominators_capped (wf : g.WellFormed) (restrict : Bool) :
    ∃ run, g.dominators restrict none = .ok run ∧ ∀ cap : Int,
      g.dominators restrict (some cap) =
        if cap < run.passes then .error (.noConvergence cap.toNat g.size) else .ok run := by
  obtain ⟨run, ran, -, -⟩ := dominators_solved wf restrict
  refine ⟨run, ran, fun cap => ?_⟩
  rw [dominators_none] at ran
  have positive := lt_passes_of_iterate ran
  rw [dominators_some, iterate_eq_of_ok ran cap.toNat, Nat.zero_add]
  -- a negative cap counts as zero: the check fails before the first pass
  have sameTest : cap.toNat < run.passes ↔ cap < run.passes := by omega
  by_cases below : cap < run.passes
  · rw [if_pos (sameTest.mpr below), if_pos below]
  · rw [if_neg (mt sameTest.mp below), if_neg below]

theorem dominators_capped_of_loopWithDeadCycle :
    ∃ g, build loopWithDeadCycle .first = .ok g ∧ g.WellFormed ∧ ∀ restrict : Bool,
      ∃ run, g.dominators restrict none = .ok run ∧ ∀ cap : Int,
        g.dominators restrict (some cap) =
          if cap < run.passes then .error (.noConvergence cap.toNat g.size) else .ok run := by
  obtain ⟨g, built⟩ : ∃ g, build loopWithDeadCycle .first = .ok g := ⟨_, rfl⟩
  have wf := wellFormed_of_build built
  exact ⟨g, built, wf, fun restrict => dominators_capped wf restrict⟩

end Graph

end Flowgraph
