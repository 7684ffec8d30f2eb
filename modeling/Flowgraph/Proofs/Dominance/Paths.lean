import Mathlib.Data.List.Sort
import Flowgraph.Proofs.Dominance.Fixpoint
import Flowgraph.Proofs.Reachability
import Flowgraph.Proofs.Build

/-!
**The dominator sets of a graph, read off its walks.**

`Graph.dominators` runs the passes of `Dominance` over a scope, all blocks or the blocks
reachable from the entry block, with the graph's predecessor lists cut to the scope. On a well
formed graph that problem is scoped (`scoped_dominatorScope`), so the passes end without fault
(`dominators_solved`), and the rooted chains of the problem are walks of the graph:

* `rooted_iff_walk_of_restricted`: over the reachable blocks the only root is the entry block,
  and rooted chains are the walks from it;
* `rooted_iff_walk_of_default`: over all blocks the roots are the entry block and the blocks
  without predecessors, and rooted chains are the walks from a root.

Main statements, for every graph a build gives:

* `restricted_dominators_eq_walk_dominators`: in restricted mode the set of a reachable block is
  the set of blocks on every walk from the entry block to it, and an unreachable block is its own
  only dominator;
* `default_dominators_eq_rooted_walk_dominators`: in default mode the set of a block is the set
  of blocks on every walk from a root to it (all blocks when there is none), and it agrees with
  restricted mode on the reachable blocks when no unreachable block precedes a reachable one.
-/

namespace Flowgraph

namespace Graph

open Dominance

variable {g : Graph}

theorem getD_scopedPredecessors (scope : List Nat) (b : Nat) :
    (g.scopedPredecessors scope).getD b [] =
      if b < g.size then (g.predecessors b).filter scope.contains else [] := by
  by_cases below : b < g.size <;> simp [scopedPredecessors, below]

theorem mem_scopedPredecessors {scope : List Nat} {b q : Nat} :
    q ∈ (g.scopedPredecessors scope).getD b [] ↔ b < g.size ∧ g.Step q b ∧ q ∈ scope := by
  rw [getD_scopedPredecessors]
  by_cases below : b < g.size
  · simp [below, mem_predecessors_iff]
  · simp [below]

theorem mem_dominatorScope (wf : g.WellFormed) {restrict : Bool} {b : Nat} :
    b ∈ g.dominatorScope restrict ↔ if restrict then g.Reaches g.entry b else b < g.size := by
  cases restrict
  · simp [dominatorScope]
  · simp [dominatorScope, mem_reachableFrom_iff wf wf.entry_lt]

/-- On a well formed graph, the dominator problem of either mode is scoped. -/
theorem scoped_dominatorScope (wf : g.WellFormed) (restrict : Bool) :
    Scoped g.size g.entry (g.dominatorScope restrict)
      (g.scopedPredecessors (g.dominatorScope restrict)) := by
  refine ⟨?_, fun x member => ?_, ?_, fun b q pred => (mem_scopedPredecessors.mp pred).2.2⟩
  · rw [mem_dominatorScope wf]
    split
    · exact Relation.ReflTransGen.refl
    · exact wf.entry_lt
  · rw [mem_dominatorScope wf] at member
    split at member
    · exact wf.reaches_lt wf.entry_lt member
    · exact member
  · cases restrict
    · exact List.pairwise_lt_range
    · exact pairwise_reachableFrom g g.entry

theorem dominators_none (restrict : Bool) :
    g.dominators restrict none =
      iterate (sweep (g.scopedPredecessors (g.dominatorScope restrict)) g.entry
          (g.dominatorScope restrict)) g.size (g.size * g.size + 2) 0
        (initial g.size g.entry (g.dominatorScope restrict))
        [sizes (initial g.size g.entry (g.dominatorScope restrict))] := by
  simp only [dominators, Option.getD_none, Int.ofNat_eq_natCast, Int.toNat_natCast]

/-- **The passes of a well formed graph end without fault, in solved sets.** -/
theorem dominators_solved (wf : g.WellFormed) (restrict : Bool) :
    ∃ run, g.dominators restrict none = .ok run ∧
      Invariant g.size g.entry (g.dominatorScope restrict)
        (g.scopedPredecessors (g.dominatorScope restrict)) run.sets ∧
      Solved g.entry (g.dominatorScope restrict)
        (g.scopedPredecessors (g.dominatorScope restrict)) run.sets := by
  rw [dominators_none]
  exact passes_solve (scoped_dominatorScope wf restrict)

/-! ### Rooted chains are walks -/

/-- Over the reachable blocks, the rooted chains are the walks from the entry block. -/
theorem rooted_iff_walk_of_restricted (wf : g.WellFormed) {b : Nat} {chain : List Nat} :
    Rooted g.entry (g.dominatorScope true) (g.scopedPredecessors (g.dominatorScope true)) b chain ↔
      g.Walk g.entry b chain := by
  constructor
  · intro rooted
    induction rooted with
    | atEntry => exact .start
    | @orphan r member empty =>
      -- a reachable block other than the entry block has a reachable predecessor
      have reach : g.Reaches g.entry r := by simpa [mem_dominatorScope wf] using member
      by_cases isEntry : r = g.entry
      · rw [isEntry]
        exact .start
      · obtain ⟨p, reachP, step⟩ := exists_step_of_reaches reach isEntry
        have pred : p ∈ (g.scopedPredecessors (g.dominatorScope true)).getD r [] :=
          mem_scopedPredecessors.mpr ⟨(wf.step_lt step).2, step, by
            simpa [mem_dominatorScope wf] using reachP⟩
        rw [empty] at pred
        exact absurd pred List.not_mem_nil
    | step _ pred ih => exact ih.step (mem_scopedPredecessors.mp pred).2.1
  · intro walk
    induction walk with
    | start => exact .atEntry
    | @step p b path earlier step ih =>
      refine ih.step (mem_scopedPredecessors.mpr ⟨(wf.step_lt step).2, step, ?_⟩)
      simpa [mem_dominatorScope wf] using earlier.reaches

/-- Over all blocks, the rooted chains are the walks from the entry block or from a block
without predecessors. -/
theorem rooted_iff_walk_of_default (wf : g.WellFormed) {b : Nat} {chain : List Nat} :
    Rooted g.entry (g.dominatorScope false) (g.scopedPredecessors (g.dominatorScope false)) b
        chain ↔
      ∃ r, (r = g.entry ∨ r < g.size ∧ g.predecessors r = []) ∧ g.Walk r b chain := by
  have allPreds : ∀ r < g.size, (g.scopedPredecessors (g.dominatorScope false)).getD r [] =
      g.predecessors r := by
    intro r below
    rw [getD_scopedPredecessors, if_pos below, List.filter_eq_self]
    intro q pred
    simpa [dominatorScope] using (wf.step_lt (mem_predecessors_iff.mp pred)).1
  constructor
  · intro rooted
    induction rooted with
    | atEntry => exact ⟨g.entry, .inl rfl, .start⟩
    | @orphan r member empty =>
      have below : r < g.size := by simpa [dominatorScope] using member
      exact ⟨r, .inr ⟨below, allPreds r below ▸ empty⟩, .start⟩
    | step _ pred ih =>
      obtain ⟨r, root, walk⟩ := ih
      exact ⟨r, root, walk.step (mem_scopedPredecessors.mp pred).2.1⟩
  · rintro ⟨r, root, walk⟩
    induction walk with
    | start =>
      rcases root with isEntry | ⟨below, empty⟩
      · rw [isEntry]
        exact .atEntry
      · exact .orphan (by simpa [dominatorScope] using below) (by rw [allPreds r below, empty])
    | step _ step ih =>
      obtain ⟨fromBelow, toBelow⟩ := wf.step_lt step
      exact ih.step (mem_scopedPredecessors.mpr ⟨toBelow, step, by
        simpa [dominatorScope] using fromBelow⟩)

/-! ### The two modes -/

theorem solved_of_dominators (wf : g.WellFormed) {restrict : Bool} {run : DominatorRun}
    (ran : g.dominators restrict none = .ok run) :
    Invariant g.size g.entry (g.dominatorScope restrict)
        (g.scopedPredecessors (g.dominatorScope restrict)) run.sets ∧
      Solved g.entry (g.dominatorScope restrict)
        (g.scopedPredecessors (g.dominatorScope restrict)) run.sets := by
  obtain ⟨solution, ranSolution, inv, solved⟩ := dominators_solved wf restrict
  rw [ran] at ranSolution
  cases ranSolution
  exact ⟨inv, solved⟩

/-- In restricted mode, the set of a reachable block holds the blocks on every walk from the
entry block to it. -/
theorem mem_restricted_dominators_iff (wf : g.WellFormed) {run : DominatorRun}
    (ran : g.dominators true none = .ok run) {b d : Nat} (reach : g.Reaches g.entry b) :
    d ∈ run.sets.getD b [] ↔ ∀ path, g.Walk g.entry b path → d ∈ path := by
  obtain ⟨inv, solved⟩ := solved_of_dominators wf ran
  have member : b ∈ g.dominatorScope true := (mem_dominatorScope wf).mpr reach
  rw [mem_of_solved_iff (scoped_dominatorScope wf true) inv solved member]
  constructor
  · rintro ⟨_, chains⟩ path walk
    exact chains path ((rooted_iff_walk_of_restricted wf).mpr walk)
  · intro onAll
    obtain ⟨path, walk⟩ := exists_walk_of_reaches reach
    have onPath := onAll path walk
    refine ⟨(mem_dominatorScope wf).mpr (walk.reaches_of_mem onPath), fun chain rooted => ?_⟩
    exact onAll chain ((rooted_iff_walk_of_restricted wf).mp rooted)

theorem restricted_dominators_of_not_reaches (wf : g.WellFormed) {run : DominatorRun}
    (ran : g.dominators true none = .ok run) {b : Nat} (below : b < g.size)
    (unreachable : ¬ g.Reaches g.entry b) : run.sets.getD b [] = [b] :=
  (solved_of_dominators wf ran).1.outside b below fun member =>
    unreachable ((mem_dominatorScope wf).mp member)

/-- In default mode, the set of a block holds the blocks on every walk to it from the entry block
or from a block without predecessors. -/
theorem mem_default_dominators_iff (wf : g.WellFormed) {run : DominatorRun}
    (ran : g.dominators false none = .ok run) {b d : Nat} (below : b < g.size) :
    d ∈ run.sets.getD b [] ↔ d < g.size ∧ ∀ r path,
      (r = g.entry ∨ r < g.size ∧ g.predecessors r = []) → g.Walk r b path → d ∈ path := by
  obtain ⟨inv, solved⟩ := solved_of_dominators wf ran
  have member : b ∈ g.dominatorScope false := by simpa [dominatorScope] using below
  rw [mem_of_solved_iff (scoped_dominatorScope wf false) inv solved member]
  have inScope : d ∈ g.dominatorScope false ↔ d < g.size := by simp [dominatorScope]
  rw [inScope]
  refine and_congr_right fun _ => ⟨fun chains r path root walk => ?_, fun onAll chain rooted => ?_⟩
  · exact chains path ((rooted_iff_walk_of_default wf).mpr ⟨r, root, walk⟩)
  · obtain ⟨r, root, walk⟩ := (rooted_iff_walk_of_default wf).mp rooted
    exact onAll r chain root walk

theorem pairwise_dominators (wf : g.WellFormed) {restrict : Bool} {run : DominatorRun}
    (ran : g.dominators restrict none = .ok run) (b : Nat) :
    (run.sets.getD b []).Pairwise (· < ·) :=
  (solved_of_dominators wf ran).1.sorted b

/-- **A dominator of a reachable block, in either mode, lies on every walk from the entry block
to it.** In default mode the extra roots only add walks, so they can only shrink the set. -/
theorem mem_walk_of_mem_dominators (wf : g.WellFormed) {restrict : Bool} {run : DominatorRun}
    (ran : g.dominators restrict none = .ok run) {b d : Nat} (reach : g.Reaches g.entry b)
    (member : d ∈ run.sets.getD b []) {path : List Nat} (walk : g.Walk g.entry b path) :
    d ∈ path := by
  cases restrict
  · have below := wf.reaches_lt wf.entry_lt reach
    exact ((mem_default_dominators_iff wf ran below).mp member).2 g.entry path (.inl rfl) walk
  · exact (mem_restricted_dominators_iff wf ran reach).mp member path walk

/-- When no unreachable block precedes a reachable one, every walk to a reachable block starts at
a reachable block. -/
theorem Walk.reaches_start_of_closed
    (closed : ∀ p b, g.Step p b → g.Reaches g.entry b → g.Reaches g.entry p) {r b : Nat}
    {path : List Nat} (walk : g.Walk r b path) (reach : g.Reaches g.entry b) :
    g.Reaches g.entry r := by
  induction walk with
  | start => exact reach
  | step _ step ih => exact ih (closed _ _ step reach)

/-- The two modes agree on a reachable block when no unreachable block precedes a reachable one. -/
theorem default_dominators_eq_restricted (wf : g.WellFormed) {full restricted : DominatorRun}
    (ranFull : g.dominators false none = .ok full)
    (ranRestricted : g.dominators true none = .ok restricted)
    (closed : ∀ p b, g.Step p b → g.Reaches g.entry b → g.Reaches g.entry p) {b : Nat}
    (reach : g.Reaches g.entry b) : full.sets.getD b [] = restricted.sets.getD b [] := by
  refine List.Pairwise.eq_of_mem_iff (pairwise_dominators wf ranFull b)
    (pairwise_dominators wf ranRestricted b) fun d => ?_
  rw [mem_default_dominators_iff wf ranFull (wf.reaches_lt wf.entry_lt reach),
    mem_restricted_dominators_iff wf ranRestricted reach]
  constructor
  · rintro ⟨_, onAll⟩ path walk
    exact onAll g.entry path (.inl rfl) walk
  · intro onAll
    obtain ⟨path, walk⟩ := exists_walk_of_reaches reach
    refine ⟨wf.reaches_lt wf.entry_lt (walk.reaches_of_mem (onAll path walk)),
      fun r chain root rootWalk => ?_⟩
    -- the root is reachable, and a reachable block without predecessors is the entry block
    have start := rootWalk.reaches_start_of_closed closed reach
    have isEntry : r = g.entry := by
      rcases root with isEntry | ⟨_, empty⟩
      · exact isEntry
      · by_contra other
        obtain ⟨p, _, step⟩ := exists_step_of_reaches start other
        have pred := mem_predecessors_iff.mpr step
        rw [empty] at pred
        exact absurd pred List.not_mem_nil
    subst isEntry
    exact onAll chain rootWalk

/-! ### Dominators of built graphs -/

/-- **Restricted mode computes textbook dominators.** For every graph a build gives, the passes
over the reachable blocks end without fault; the set of a reachable block is the set of blocks
that lie on every walk from the entry block to it, which holds the entry block and the block
itself, and an unreachable block is its own only dominator. -/
theorem restricted_dominators_eq_walk_dominators {stream : List Instruction}
    {entry : EntryPoint stream.length} {g : Graph} (built : build stream entry = .ok g) :
    ∃ run, g.dominators true none = .ok run ∧ run.sets.size = g.size ∧
      ∀ b < g.size,
        (g.Reaches g.entry b →
          (∀ d, d ∈ run.sets.getD b [] ↔ ∀ path, g.Walk g.entry b path → d ∈ path) ∧
            g.entry ∈ run.sets.getD b [] ∧ b ∈ run.sets.getD b []) ∧
        (¬ g.Reaches g.entry b → run.sets.getD b [] = [b]) := by
  have wf := wellFormed_of_build built
  obtain ⟨run, ran, inv, _⟩ := dominators_solved wf true
  refine ⟨run, ran, inv.size, fun b below => ⟨fun reach => ?_, ?_⟩⟩
  · have onWalks := fun d => mem_restricted_dominators_iff wf ran (d := d) reach
    exact ⟨onWalks, (onWalks _).mpr fun _ walk => walk.head_mem,
      (onWalks _).mpr fun _ walk => walk.last_mem⟩
  · exact restricted_dominators_of_not_reaches wf ran below

/-- A loop, and an unreachable block that jumps to itself and falls into the reachable exit. -/
def loopWithDeadCycle : List Instruction :=
  [⟨"iload", [.integer 0], none, none⟩, Instruction.marker ⟨0, "TOP"⟩,
   ⟨"ifeq", [.name "END"], none, some ⟨2, "END"⟩⟩, ⟨"goto", [.name "TOP"], none, some ⟨0, "TOP"⟩⟩,
   Instruction.marker ⟨1, "DEAD"⟩, ⟨"pop", [], none, none⟩, ⟨"ifeq", [.name "DEAD"], none, some ⟨1, "DEAD"⟩⟩,
   Instruction.marker ⟨2, "END"⟩, ⟨"return", [], none, none⟩]

theorem restricted_dominators_of_loopWithDeadCycle :
    ∃ g, build loopWithDeadCycle .first = .ok g ∧
      ∃ run, g.dominators true none = .ok run ∧ run.sets.size = g.size ∧
        ∀ b < g.size,
          (g.Reaches g.entry b →
            (∀ d, d ∈ run.sets.getD b [] ↔ ∀ path, g.Walk g.entry b path → d ∈ path) ∧
              g.entry ∈ run.sets.getD b [] ∧ b ∈ run.sets.getD b []) ∧
          (¬ g.Reaches g.entry b → run.sets.getD b [] = [b]) := by
  obtain ⟨g, built⟩ : ∃ g, build loopWithDeadCycle .first = .ok g := ⟨_, rfl⟩
  exact ⟨g, built, restricted_dominators_eq_walk_dominators built⟩

/-- **Default mode computes dominators from extra roots.** For every graph a build gives, the
passes over all blocks end without fault; the set of a block is the set of blocks that lie on
every walk to it from the entry block or from a block without predecessors, and all blocks when
there is no such walk (a block fed only by a cycle that no root reaches). When no unreachable
block precedes a reachable one, it agrees with restricted mode on every reachable block. -/
theorem default_dominators_eq_rooted_walk_dominators {stream : List Instruction}
    {entry : EntryPoint stream.length} {g : Graph} (built : build stream entry = .ok g) :
    ∃ run, g.dominators false none = .ok run ∧ run.sets.size = g.size ∧
      (∀ b < g.size, ∀ d, d ∈ run.sets.getD b [] ↔ d < g.size ∧ ∀ r path,
        (r = g.entry ∨ r < g.size ∧ g.predecessors r = []) → g.Walk r b path → d ∈ path) ∧
      ∃ restricted, g.dominators true none = .ok restricted ∧
        ((∀ p b, g.Step p b → g.Reaches g.entry b → g.Reaches g.entry p) →
          ∀ b, g.Reaches g.entry b → run.sets.getD b [] = restricted.sets.getD b []) := by
  have wf := wellFormed_of_build built
  obtain ⟨run, ran, inv, _⟩ := dominators_solved wf false
  obtain ⟨restricted, ranRestricted, _⟩ := dominators_solved wf true
  refine ⟨run, ran, inv.size, fun b below d => mem_default_dominators_iff wf ran below,
    restricted, ranRestricted, fun closed b reach => ?_⟩
  exact default_dominators_eq_restricted wf ran ranRestricted closed reach

theorem default_dominators_of_loopWithDeadCycle :
    ∃ g, build loopWithDeadCycle .first = .ok g ∧
      ∃ run, g.dominators false none = .ok run ∧ run.sets.size = g.size ∧
        (∀ b < g.size, ∀ d, d ∈ run.sets.getD b [] ↔ d < g.size ∧ ∀ r path,
          (r = g.entry ∨ r < g.size ∧ g.predecessors r = []) → g.Walk r b path → d ∈ path) ∧
        ∃ restricted, g.dominators true none = .ok restricted ∧
          ((∀ p b, g.Step p b → g.Reaches g.entry b → g.Reaches g.entry p) →
            ∀ b, g.Reaches g.entry b → run.sets.getD b [] = restricted.sets.getD b []) := by
  obtain ⟨g, built⟩ : ∃ g, build loopWithDeadCycle .first = .ok g := ⟨_, rfl⟩
  exact ⟨g, built, default_dominators_eq_rooted_walk_dominators built⟩

end Graph

end Flowgraph
