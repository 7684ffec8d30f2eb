import Mathlib.Data.List.Chain
import Mathlib.Algebra.GroupWithZero.Nat
import Flowgraph.Proofs.Dominance.Passes

/-!
**The dominator sets only shrink, and the history records it.**

The passes change the sets one visit at a time. The sets they can hold (`Intermediate`) are the
initial sets and whatever a visit of a block of the scope makes of sets they can hold, the visits
coming in any order; all of them keep the invariant of the passes.

* `visit_shrinksOrKeeps`: a visit keeps the sets and the flag, or assigns to its block alone a
  proper subset of that block's set and raises the flag;
* `final_subset`: every set the passes can hold contains the set its block ends with, since the
  passes end in the greatest solution of the dominator equations;
* `iterate_recorded`: a run that ends without fault records the sizes of the sets before the first
  pass and after each pass (`Recorded`): one snapshot more than passes, no size ever grows, some
  size drops in every pass but the last, and the last pass, which changes nothing, records the
  final sizes again;
* `dominator_sets_only_shrink`: all of this for every well formed graph, in either mode and under
  any cap.
-/

namespace Flowgraph

namespace Dominance

/-! ### Snapshots of the sizes -/

/-- No size grows from one snapshot of the history to the next. -/
def NoneGrows (before after : List Nat) : Prop :=
  List.Forall₂ (fun old new => new ≤ old) before after

/-- No size grows from one snapshot to the next, and some size drops. -/
def SomeDrops (before after : List Nat) : Prop :=
  NoneGrows before after ∧ ∃ p ∈ before.zip after, p.2 < p.1

/-- The history of a run: one snapshot more than passes, no size growing from a snapshot to the
next, some size dropping at every pass but the last, and the last pass recording the final sizes
again. -/
structure Recorded (run : DominatorRun) : Prop where
  length : run.history.length = run.passes + 1
  noneGrows : run.history.IsChain NoneGrows
  someDrops : run.history.dropLast.IsChain SomeDrops
  quietLast : ∃ front, run.history = front ++ [sizes run.sets, sizes run.sets]

theorem noneGrows_refl (sizes : List Nat) : NoneGrows sizes sizes :=
  List.forall₂_same.mpr fun x _ => Nat.le_refl x

/-- Sizes that do not grow and sum to less have one that drops. -/
theorem exists_drop_of_sum_lt {before after : List Nat} (grows : NoneGrows before after)
    (smaller : after.sum < before.sum) : ∃ p ∈ before.zip after, p.2 < p.1 := by
  induction grows with
  | nil => exact absurd smaller (Nat.lt_irrefl 0)
  | @cons old new before after le rest ih =>
    by_cases drop : new < old
    · exact ⟨(old, new), List.mem_cons_self, drop⟩
    · rw [List.sum_cons, List.sum_cons] at smaller
      obtain ⟨p, member, lower⟩ := ih (by omega)
      exact ⟨p, List.mem_cons_of_mem _ member, lower⟩

theorem getElem_sizes {sets : Array (List Nat)} {i : Nat} (below : i < (sizes sets).length) :
    (sizes sets)[i] = (sets.getD i []).length := by
  have inArray : i < sets.size := by simpa [sizes] using below
  simp [sizes, inArray]

/-- Sets no longer than before, one by one, have sizes that do not grow. -/
theorem noneGrows_sizes {sets next : Array (List Nat)} (sameSize : next.size = sets.size)
    (shorter : ∀ q, (next.getD q []).length ≤ (sets.getD q []).length) :
    NoneGrows (sizes sets) (sizes next) := by
  refine List.forall₂_iff_get.mpr ⟨by simp [sizes, sameSize], fun i below₁ below₂ => ?_⟩
  simp only [List.get_eq_getElem, getElem_sizes]
  exact shorter i

/-! ### The sets the passes can hold -/

/-- The sets the passes can hold: the initial sets, and the sets a visit of a block of the scope
makes from sets they can hold, the visits coming in any order. -/
inductive Intermediate (count entry : Nat) (scope : List Nat) (preds : Array (List Nat)) :
    Array (List Nat) → Prop
  | initial : Intermediate count entry scope preds (initial count entry scope)
  | visit {sets : Array (List Nat)} {raised : Bool} {b : Nat} :
      Intermediate count entry scope preds sets → b ∈ scope →
        Intermediate count entry scope preds (visit preds entry (sets, raised) b).1

/-- A visit of block `b` keeps the sets and the flag, or assigns to the set of `b` alone a proper
subset of it and raises the flag. -/
def ShrinksOrKeeps (preds : Array (List Nat)) (entry : Nat) (sets : Array (List Nat))
    (raised : Bool) (b : Nat) : Prop :=
  visit preds entry (sets, raised) b = (sets, raised) ∨
    ∃ next, visit preds entry (sets, raised) b = (sets.setIfInBounds b next, true) ∧
      next ⊆ sets.getD b [] ∧ ¬ sets.getD b [] ⊆ next

section Problem

variable {count entry : Nat} {scope : List Nat} {preds : Array (List Nat)}

theorem Intermediate.invariant (shape : Scoped count entry scope preds) {sets : Array (List Nat)}
    (reached : Intermediate count entry scope preds sets) :
    Invariant count entry scope preds sets := by
  induction reached with
  | initial => exact initial_invariant shape
  | visit _ member inv => exact (visit_spec shape inv member).1

/-- **Every assignment of a visit replaces a set by a proper subset of it.** The new value lies in
the old one by the invariant, and two strictly increasing lists inside each other are equal. -/
theorem visit_shrinksOrKeeps {sets : Array (List Nat)}
    (inv : Invariant count entry scope preds sets) {b : Nat} (member : b ∈ scope) (raised : Bool) :
    ShrinksOrKeeps preds entry sets raised b := by
  by_cases isEntry : b = entry
  · exact .inl (by simp only [visit, if_pos isEntry])
  · by_cases same : update sets b (preds.getD b []) = sets.getD b []
    · exact .inl (by simp only [visit, if_neg isEntry, if_pos same])
    · refine .inr ⟨update sets b (preds.getD b []), by simp only [visit, if_neg isEntry, if_neg same],
        fun x inNew => inv.above b member isEntry x inNew, fun larger => same ?_⟩
      exact List.Pairwise.eq_of_mem_iff (pairwise_update inv.sorted) (inv.sorted b)
        fun x => ⟨inv.above b member isEntry x, fun inOld => larger inOld⟩

/-- **Every set the passes can hold contains the set its block ends with.** A block of the scope
ends with the blocks of the scope on all rooted chains to it, which every such set holds; any
other block keeps its singleton throughout. -/
theorem final_subset (shape : Scoped count entry scope preds) {final sets : Array (List Nat)}
    (invFinal : Invariant count entry scope preds final) (solved : Solved entry scope preds final)
    (inv : Invariant count entry scope preds sets) (c : Nat) :
    final.getD c [] ⊆ sets.getD c [] := by
  intro x member
  by_cases inScope : c ∈ scope
  · obtain ⟨xInScope, chains⟩ := (mem_of_solved_iff shape invFinal solved inScope).mp member
    exact inv.below c inScope x xInScope chains
  · by_cases below : c < count
    · rw [invFinal.outside c below inScope] at member
      rwa [inv.outside c below inScope]
    · have beyond : final.getD c [] = [] := by
        simp [Array.getD_eq_getD_getElem?, invFinal.size, below]
      rw [beyond] at member
      exact absurd member List.not_mem_nil

/-! ### Passes -/

theorem fold_visit_intermediate (active : List Nat) (sub : ∀ b ∈ active, b ∈ scope)
    (state : Array (List Nat) × Bool) (reached : Intermediate count entry scope preds state.1) :
    Intermediate count entry scope preds (active.foldl (visit preds entry) state).1 := by
  induction active generalizing state with
  | nil => exact reached
  | cons b rest ih =>
    obtain ⟨sets, raised⟩ := state
    rw [List.foldl_cons]
    exact ih (fun c later => sub c (List.mem_cons_of_mem b later)) _
      (.visit reached (sub b List.mem_cons_self))

theorem fold_visit_subset (shape : Scoped count entry scope preds) (active : List Nat)
    (sub : ∀ b ∈ active, b ∈ scope) (state : Array (List Nat) × Bool)
    (inv : Invariant count entry scope preds state.1) (q : Nat) :
    (active.foldl (visit preds entry) state).1.getD q [] ⊆ state.1.getD q [] := by
  induction active generalizing state with
  | nil => exact List.Subset.refl _
  | cons b rest ih =>
    rw [List.foldl_cons]
    have member := sub b List.mem_cons_self
    refine List.Subset.trans (ih (fun c later => sub c (List.mem_cons_of_mem b later)) _
      (visit_spec shape inv member).1) fun x inSet => ?_
    exact visit_subset shape inv member q x inSet

/-- **One pass** from sets the passes can hold ends in such sets, and no size grows. When it
raises the flag some size drops; when it does not, the sets are unchanged and solve the dominator
equations. -/
theorem sweep_recorded (shape : Scoped count entry scope preds) {sets : Array (List Nat)}
    (reached : Intermediate count entry scope preds sets) :
    Intermediate count entry scope preds (sweep preds entry scope sets).1 ∧
      NoneGrows (sizes sets) (sizes (sweep preds entry scope sets).1) ∧
      ((sweep preds entry scope sets).2 = true →
        SomeDrops (sizes sets) (sizes (sweep preds entry scope sets).1)) ∧
      ((sweep preds entry scope sets).2 = false →
        (sweep preds entry scope sets).1 = sets ∧ Solved entry scope preds sets) := by
  have inv := reached.invariant shape
  obtain ⟨invAfter, progress, solvedIfQuiet⟩ :=
    fold_visit shape scope (fun _ member => member) (sets, false) inv
  have shrink := fold_visit_subset shape scope (fun _ member => member) (sets, false) inv
  -- a strictly increasing list inside another is no longer
  have grows : NoneGrows (sizes sets) (sizes (sweep preds entry scope sets).1) := by
    refine noneGrows_sizes (invAfter.size.trans inv.size.symm) fun q => ?_
    exact (List.subperm_of_subset ((invAfter.sorted q).imp Nat.ne_of_lt) (shrink q)).length_le
  refine ⟨fold_visit_intermediate scope (fun _ member => member) (sets, false) reached, grows,
    fun raised => ⟨grows, ?_⟩, fun quiet => ⟨progress.quiet quiet, solvedIfQuiet quiet⟩⟩
  have smaller : total (sweep preds entry scope sets).1 < total sets :=
    (progress.shrank raised).resolve_left (by simp)
  exact exists_drop_of_sum_lt grows smaller

/-- **A run records one snapshot per pass.** From sets the passes can hold, with a history whose
last snapshot is their sizes, one snapshot more than passes so far and some size dropping at each
step, a run that ends without fault ends in such sets that solve the dominator equations, and
records its history as `Recorded` says. By induction on the fuel, one pass at a time. -/
theorem iterate_recorded (shape : Scoped count entry scope preds) (fuel : Nat) :
    ∀ (passes : Nat) (sets : Array (List Nat)) (history : List (List Nat)) (run : DominatorRun),
      Intermediate count entry scope preds sets → history.IsChain SomeDrops →
      history.getLast? = some (sizes sets) → history.length = passes + 1 →
      iterate (sweep preds entry scope) count fuel passes sets history = .ok run →
      Intermediate count entry scope preds run.sets ∧ Solved entry scope preds run.sets ∧
        Recorded run := by
  induction fuel with
  | zero =>
    intro _ _ _ _ _ _ _ _ ran
    cases ran
  | succ fuel ih =>
    intro passes sets history run reached drops last counted ran
    obtain ⟨reachedNext, grows, raisedDrops, quietSame⟩ := sweep_recorded shape reached
    rw [iterate] at ran
    generalize sweep preds entry scope sets = result at ran reachedNext grows raisedDrops quietSame
    obtain ⟨next, changed⟩ := result
    dsimp only at reachedNext grows raisedDrops quietSame
    cases changed with
    | true =>
      simp only [↓reduceIte] at ran
      refine ih (passes + 1) next _ run reachedNext ?_ List.getLast?_concat (by simp [counted]) ran
      -- the pass dropped a size, from the last snapshot to the new one
      refine drops.append (List.isChain_singleton _) fun before atEnd after atStart => ?_
      rw [last, Option.mem_some_iff] at atEnd
      rw [List.head?_cons, Option.mem_some_iff] at atStart
      rw [← atEnd, ← atStart]
      exact raisedDrops rfl
    | false =>
      -- the quiet pass ends the run, and records the last sizes again
      simp only [Bool.false_eq_true, ↓reduceIte] at ran
      cases ran
      obtain ⟨unchanged, solved⟩ := quietSame rfl
      subst unchanged
      obtain ⟨front, rfl⟩ := List.getLast?_eq_some_iff.mp last
      have frontLength : front.length = passes := by simpa using counted
      refine ⟨reachedNext, solved, ⟨by simp [frontLength], ?_, ?_, ⟨front, by simp⟩⟩⟩
      · refine (drops.imp fun _ _ dropped => dropped.1).append (List.isChain_singleton _) ?_
        intro before atEnd after atStart
        rw [List.getLast?_concat, Option.mem_some_iff] at atEnd
        rw [List.head?_cons, Option.mem_some_iff] at atStart
        rw [← atEnd, ← atStart]
        exact noneGrows_refl _
      · show (front ++ [sizes next] ++ [sizes next]).dropLast.IsChain SomeDrops
        rw [List.dropLast_concat]
        exact drops

end Problem

end Dominance

namespace Graph

open Dominance

variable {g : Graph}

theorem dominators_eq_iterate (restrict : Bool) (cap : Option Int) :
    g.dominators restrict cap =
      iterate (sweep (g.scopedPredecessors (g.dominatorScope restrict)) g.entry
          (g.dominatorScope restrict)) g.size (cap.getD (Int.ofNat (g.size * g.size + 2))).toNat 0
        (initial g.size g.entry (g.dominatorScope restrict))
        [sizes (initial g.size g.entry (g.dominatorScope restrict))] := rfl

/-- **The dominator sets only shrink.** For every well formed graph and either mode, the passes
under the default cap end without fault, and every run that ends without fault, under any cap:

* records one snapshot of the sizes more than it makes passes, no size growing from a snapshot to
  the next, some size dropping at every pass but the last, and the last two snapshots equal
  (`Recorded`);
* holds, before and after each visit, sets that its visits make from the initial sets; from any
  such sets a visit assigns to its block, if anything, a proper subset of that block's set, and
  every such set contains the set its block ends with. -/
theorem dominator_sets_only_shrink (wf : g.WellFormed) (restrict : Bool) :
    (∃ run, g.dominators restrict none = .ok run) ∧
    ∀ cap run, g.dominators restrict cap = .ok run →
      Recorded run ∧
      Intermediate g.size g.entry (g.dominatorScope restrict)
        (g.scopedPredecessors (g.dominatorScope restrict)) run.sets ∧
      ∀ sets, Intermediate g.size g.entry (g.dominatorScope restrict)
          (g.scopedPredecessors (g.dominatorScope restrict)) sets →
        (∀ b ∈ g.dominatorScope restrict, ∀ raised,
          ShrinksOrKeeps (g.scopedPredecessors (g.dominatorScope restrict)) g.entry sets raised b) ∧
        ∀ c, run.sets.getD c [] ⊆ sets.getD c [] := by
  have shape := scoped_dominatorScope wf restrict
  obtain ⟨solution, ranSolution, -, -⟩ := dominators_solved wf restrict
  refine ⟨⟨solution, ranSolution⟩, fun cap run ran => ?_⟩
  rw [dominators_eq_iterate] at ran
  obtain ⟨reached, solved, recorded⟩ :=
    iterate_recorded shape _ 0 _ _ run .initial (List.isChain_singleton _) rfl rfl ran
  have invFinal := reached.invariant shape
  refine ⟨recorded, reached, fun sets intermediate => ⟨fun b member raised => ?_, ?_⟩⟩
  · exact visit_shrinksOrKeeps (intermediate.invariant shape) member raised
  · exact final_subset shape invFinal solved (intermediate.invariant shape)

theorem dominator_sets_only_shrink_of_loopWithDeadCycle :
    ∃ g, build loopWithDeadCycle .first = .ok g ∧ g.WellFormed ∧ ∀ restrict : Bool,
      (∃ run, g.dominators restrict none = .ok run) ∧
      ∀ cap run, g.dominators restrict cap = .ok run →
        Recorded run ∧
        Intermediate g.size g.entry (g.dominatorScope restrict)
          (g.scopedPredecessors (g.dominatorScope restrict)) run.sets ∧
        ∀ sets, Intermediate g.size g.entry (g.dominatorScope restrict)
            (g.scopedPredecessors (g.dominatorScope restrict)) sets →
          (∀ b ∈ g.dominatorScope restrict, ∀ raised,
            ShrinksOrKeeps (g.scopedPredecessors (g.dominatorScope restrict)) g.entry sets raised
              b) ∧
          ∀ c, run.sets.getD c [] ⊆ sets.getD c [] := by
  obtain ⟨g, built⟩ : ∃ g, build loopWithDeadCycle .first = .ok g := ⟨_, rfl⟩
  have wf := wellFormed_of_build built
  exact ⟨g, built, wf, fun restrict => dominator_sets_only_shrink wf restrict⟩

end Graph

end Flowgraph
