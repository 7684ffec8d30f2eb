import Mathlib.Data.List.Pairwise
import Mathlib.Data.List.Sort
import Flowgraph.Report
import Flowgraph.Proofs.Dominance.Paths

/-!
**Dominators come first in the pre-order, and the dominator report lists them in order.**

The id of a reachable block is its place in the pre-order from the entry block. The pre-order
reaches each block along a walk of blocks listed before it (`exists_walk_below`), and a
dominator of a reachable block lies on every walk from the entry block to it, in either mode
(`mem_walk_of_mem_dominators`). So:

* `dominator_idxOf_le`: every dominator of a reachable block is reachable, with an id at most the
  block's own, and equal only for the block itself;
* `reportSort_range`: report order puts the reachable blocks first, by id, then the others by
  index, so the line of the block with id `k` is line `k`;
* `dominators_precede_in_preorder`: for every graph a build gives, in either mode, each such line
  names reachable ids only, in ascending order, ending with `k` and, in restricted mode, starting
  with `0`.
-/

namespace Flowgraph

namespace Graph

open Dominance

variable {g : Graph}

/-! ### The id table -/

theorem getD_foldl_setIds {order : List Nat} (distinct : order.Nodup) (start : Nat)
    (table : Array (Option Nat)) (bounded : ∀ x ∈ order, x < table.size) (i : Nat) :
    ((order.zipIdx start).foldl (fun table (index, id) => table.setIfInBounds index (some id))
        table).getD i none =
      if i ∈ order then some (start + order.idxOf i) else table.getD i none := by
  induction order generalizing start table with
  | nil => simp
  | cons x rest ih =>
    obtain ⟨fresh, distinct⟩ := List.nodup_cons.mp distinct
    have boundedRest : ∀ y ∈ rest, y < (table.setIfInBounds x (some start)).size := by
      intro y member
      simpa using bounded y (List.mem_cons_of_mem x member)
    rw [List.zipIdx_cons, List.foldl_cons, ih distinct (start + 1) _ boundedRest]
    by_cases same : i = x
    · subst same
      rw [if_neg fresh, if_pos List.mem_cons_self,
        getD_setIfInBounds_self (by simpa using bounded i List.mem_cons_self)]
      simp
    · rw [getD_setIfInBounds_of_ne same]
      by_cases later : i ∈ rest
      · rw [if_pos later, if_pos (List.mem_cons_of_mem x later),
          List.idxOf_cons_ne _ (Ne.symm same)]
        simp only [Option.some.injEq]
        omega
      · rw [if_neg later, if_neg (by simp [same, later])]

/-- **The id table gives each reachable block its place in the pre-order.** -/
theorem getD_idTable (wf : g.WellFormed) (i : Nat) :
    g.idTable.getD i none = if i ∈ g.preorder then some (g.preorder.idxOf i) else none := by
  have bounded : ∀ x ∈ g.preorder, x < (Array.replicate g.size (none : Option Nat)).size := by
    intro x member
    simpa using wf.reaches_lt wf.entry_lt ((mem_preorder_iff wf).mp member)
  rw [idTable, getD_foldl_setIds (nodup_preorder g) 0 _ bounded]
  split_ifs
  · simp
  · rw [Array.getD_eq_getD_getElem?, Array.getElem?_replicate]
    split <;> rfl

theorem reportKey_idTable (wf : g.WellFormed) (i : Nat) :
    reportKey g.idTable i = if i ∈ g.preorder then (0, g.preorder.idxOf i) else (1, i) := by
  unfold reportKey
  rw [getD_idTable wf]
  split_ifs <;> rfl

theorem reportName_idTable (wf : g.WellFormed) (i : Nat) :
    reportName g.idTable i =
      if i ∈ g.preorder then toString (g.preorder.idxOf i) else "u" ++ toString i := by
  unfold reportName
  rw [getD_idTable wf]
  split_ifs <;> rfl

/-! ### Report order -/

/-- Block `a` comes no later than block `b` in report order. -/
def ReportLe (ids : Array (Option Nat)) (a b : Nat) : Prop :=
  (reportKey ids a).1 < (reportKey ids b).1 ∨
    ((reportKey ids a).1 = (reportKey ids b).1 ∧ (reportKey ids a).2 ≤ (reportKey ids b).2)

theorem pairwise_reportSort (ids : Array (Option Nat)) (blocks : List Nat) :
    (reportSort ids blocks).Pairwise (ReportLe ids) := by
  unfold reportSort
  refine List.Pairwise.imp (fun {a b} before => ?_)
    (List.pairwise_mergeSort (fun a b c first second => ?_) (fun a b => ?_) blocks)
  -- the sort compares keys as booleans; read the comparison back as report order
  all_goals simp only [ReportLe, Bool.or_eq_true, decide_eq_true_eq, Bool.and_eq_true] at *
  all_goals omega

theorem perm_reportSort (ids : Array (Option Nat)) (blocks : List Nat) :
    (reportSort ids blocks).Perm blocks :=
  List.mergeSort_perm blocks _

/-- A list in report order whose blocks have distinct keys is the report order of any of its
permutations. -/
theorem reportSort_eq {ids : Array (Option Nat)} {blocks target : List Nat}
    (perm : blocks.Perm target) (sorted : target.Pairwise (ReportLe ids))
    (distinct : ∀ a ∈ target, ∀ b ∈ target, reportKey ids a = reportKey ids b → a = b) :
    reportSort ids blocks = target := by
  refine List.Perm.eq_of_pairwise (fun a b first second before after => ?_)
    (pairwise_reportSort ids blocks) sorted ((perm_reportSort ids blocks).trans perm)
  have memberA := ((perm_reportSort ids blocks).trans perm).subset first
  refine distinct a memberA b second (Prod.ext ?_ ?_) <;> unfold ReportLe at before after <;> omega

theorem pairwise_idxOf_preorder (g : Graph) :
    g.preorder.Pairwise fun a b => g.preorder.idxOf a < g.preorder.idxOf b := by
  rw [List.pairwise_iff_getElem]
  intro i j hi hj before
  rw [(nodup_preorder g).idxOf_getElem i hi, (nodup_preorder g).idxOf_getElem j hj]
  exact before

theorem reportLe_iff_of_mem (wf : g.WellFormed) {a b : Nat} (reachA : a ∈ g.preorder)
    (reachB : b ∈ g.preorder) :
    ReportLe g.idTable a b ↔ g.preorder.idxOf a ≤ g.preorder.idxOf b := by
  simp [ReportLe, reportKey_idTable wf, reachA, reachB]

/-- **Report order lists the reachable blocks first, by id, then the others by index.** -/
theorem reportSort_range (wf : g.WellFormed) :
    reportSort g.idTable (List.range g.size) =
      g.preorder ++ (List.range g.size).filter (· ∉ g.preorder) := by
  have inRange : ∀ x ∈ g.preorder, x < g.size := fun x member =>
    wf.reaches_lt wf.entry_lt ((mem_preorder_iff wf).mp member)
  have key := reportKey_idTable wf
  apply reportSort_eq
  · -- both lists hold every block once
    have distinct : (g.preorder ++ (List.range g.size).filter (· ∉ g.preorder)).Nodup := by
      refine List.nodup_append.mpr ⟨nodup_preorder g, List.nodup_range.filter _, ?_⟩
      intro a reached b rest same
      have outB : b ∉ g.preorder := by simpa using (List.mem_filter.mp rest).2
      exact outB (same ▸ reached)
    refine (List.perm_ext_iff_of_nodup List.nodup_range distinct).mpr fun x => ?_
    by_cases reach : x ∈ g.preorder
    · simp [reach, inRange x reach]
    · simp [reach]
  · refine List.pairwise_append.mpr ⟨?_, ?_, ?_⟩
    · exact (pairwise_idxOf_preorder g).imp_of_mem fun reachA reachB before =>
        (reportLe_iff_of_mem wf reachA reachB).mpr (Nat.le_of_lt before)
    · refine (List.pairwise_lt_range.filter _).imp_of_mem fun {a b} restA restB before => ?_
      have outA : a ∉ g.preorder := by simpa using (List.mem_filter.mp restA).2
      have outB : b ∉ g.preorder := by simpa using (List.mem_filter.mp restB).2
      simp [ReportLe, key, outA, outB, Nat.le_of_lt before]
    · intro a reachA b restB
      have outB : b ∉ g.preorder := by simpa using (List.mem_filter.mp restB).2
      simp [ReportLe, key, reachA, outB]
  · -- the keys of distinct blocks differ: ids of reachable blocks, indices of the others
    intro a _ b _ same
    rw [key a, key b] at same
    by_cases reachA : a ∈ g.preorder <;> by_cases reachB : b ∈ g.preorder <;>
      simp only [reachA, reachB, if_true, if_false, Prod.mk.injEq, true_and] at same
    · exact (List.idxOf_inj reachA).mp same
    · exact absurd same.1 Nat.zero_ne_one
    · exact absurd same.1 Nat.one_ne_zero
    · exact same

/-! ### The lines of the dominator report -/

theorem entries_eq_map_range (run : DominatorRun) :
    run.entries = (List.range run.sets.size).map fun i => (i, run.sets.getD i []) := by
  apply List.ext_getElem
  · simp [DominatorRun.entries]
  · intro i inEntries inRange
    have below : i < run.sets.size := by simpa using inRange
    simp [DominatorRun.entries, List.getElem_zipIdx, below]

theorem lookup_entries (run : DominatorRun) {b : Nat} (below : b < run.sets.size) :
    run.entries.lookup b = some (run.sets.getD b []) := by
  rw [entries_eq_map_range]
  exact List.lookup_graph _ (List.mem_range.mpr below)

/-- **Line `k` of the dominator report is the line of the block with id `k`**, with the block's
dominators in report order. -/
theorem getElem?_dominatorReport (wf : g.WellFormed) {run : DominatorRun}
    (sized : run.sets.size = g.size) {k : Nat} (below : k < g.preorder.length) :
    (g.dominatorReport run.entries)[k]? = some ("Block " ++ toString k ++ ": " ++
      ", ".intercalate ((reportSort g.idTable (run.sets.getD g.preorder[k] [])).map
        (reportName g.idTable))) := by
  have reached : g.preorder[k] ∈ g.preorder := List.getElem_mem below
  have inRange : g.preorder[k] < run.sets.size := by
    rw [sized]
    exact wf.reaches_lt wf.entry_lt ((mem_preorder_iff wf).mp reached)
  have blocks : run.entries.map Prod.fst = List.range g.size := by
    rw [entries_eq_map_range, List.map_map, sized]
    exact List.map_id _
  unfold dominatorReport
  dsimp only
  rw [blocks, reportSort_range wf, List.getElem?_map, List.getElem?_append_left below,
    List.getElem?_eq_getElem below, Option.map_some, lookup_entries run inRange, Option.getD_some,
    reportName_idTable wf, if_pos reached, (nodup_preorder g).idxOf_getElem k below]

/-! ### Dominators in the pre-order -/

section Dominators

variable {restrict : Bool} {run : DominatorRun}

/-- **A dominator of a reachable block is reachable and comes before it in the pre-order**,
unless it is the block itself: the pre-order reaches the block along a walk of earlier blocks,
and the dominator lies on that walk. -/
theorem dominator_precedes (wf : g.WellFormed) (ran : g.dominators restrict none = .ok run)
    {b d : Nat} (reach : g.Reaches g.entry b) (member : d ∈ run.sets.getD b []) :
    g.Reaches g.entry d ∧ (d = b ∨ g.preorder.idxOf d < g.preorder.idxOf b) := by
  obtain ⟨path, walk, earlier⟩ := exists_walk_below g ((mem_preorder_iff wf).mpr reach)
  have onPath := mem_walk_of_mem_dominators wf ran reach member walk
  exact ⟨walk.reaches_of_mem onPath, earlier d onPath⟩

theorem self_mem_dominators (wf : g.WellFormed) (ran : g.dominators restrict none = .ok run)
    {b : Nat} (reach : g.Reaches g.entry b) : b ∈ run.sets.getD b [] := by
  cases restrict
  · have below := wf.reaches_lt wf.entry_lt reach
    exact (mem_default_dominators_iff wf ran below).mpr
      ⟨below, fun _ _ _ walk => walk.last_mem⟩
  · exact (mem_restricted_dominators_iff wf ran reach).mpr fun _ walk => walk.last_mem

theorem entry_mem_restricted_dominators (wf : g.WellFormed)
    (ran : g.dominators true none = .ok run) {b : Nat} (reach : g.Reaches g.entry b) :
    g.entry ∈ run.sets.getD b [] :=
  (mem_restricted_dominators_iff wf ran reach).mpr fun _ walk => walk.head_mem

/-- The ids of the dominators of a reachable block, in report order, ascend strictly. -/
theorem pairwise_idxOf_reportSort (wf : g.WellFormed) (ran : g.dominators restrict none = .ok run)
    {b : Nat} (reach : g.Reaches g.entry b) :
    ((reportSort g.idTable (run.sets.getD b [])).map g.preorder.idxOf).Pairwise (· < ·) := by
  have distinct : (run.sets.getD b []).Nodup := (pairwise_dominators wf ran b).imp Nat.ne_of_lt
  have perm := perm_reportSort g.idTable (run.sets.getD b [])
  have reached : ∀ d ∈ reportSort g.idTable (run.sets.getD b []), d ∈ g.preorder :=
    fun d member => (mem_preorder_iff wf).mpr (dominator_precedes wf ran reach
      (perm.subset member)).1
  refine List.pairwise_map.mpr (((pairwise_reportSort _ _).and
    (perm.nodup_iff.mpr distinct)).imp_of_mem fun {a c} inA inC ordered => ?_)
  have le := (reportLe_iff_of_mem wf (reached a inA) (reached c inC)).mp ordered.1
  have ne : g.preorder.idxOf a ≠ g.preorder.idxOf c := fun same =>
    ordered.2 ((List.idxOf_inj (reached a inA)).mp same)
  omega

theorem mem_idxOf_reportSort {b i : Nat} :
    i ∈ (reportSort g.idTable (run.sets.getD b [])).map g.preorder.idxOf ↔
      ∃ d ∈ run.sets.getD b [], g.preorder.idxOf d = i := by
  simp only [List.mem_map, (perm_reportSort g.idTable _).mem_iff]

/-- A strictly ascending list that holds an upper bound of its members ends with it. -/
theorem getLast?_eq_of_forall_le {ids : List Nat} (sorted : ids.Pairwise (· < ·)) {k : Nat}
    (member : k ∈ ids) (bounded : ∀ i ∈ ids, i ≤ k) : ids.getLast? = some k := by
  have nonempty : ids ≠ [] := List.ne_nil_of_mem member
  have low : k ≤ ids.getLast nonempty := (sorted.imp Nat.le_of_lt).rel_getLast member
  have high := bounded _ (List.getLast_mem nonempty)
  rw [List.getLast?_eq_some_getLast nonempty]
  congr 1
  omega

/-- A strictly ascending list of numbers that holds `0` starts with it. -/
theorem head?_eq_zero_of_mem {ids : List Nat} (sorted : ids.Pairwise (· < ·)) (member : 0 ∈ ids) :
    ids.head? = some 0 := by
  have nonempty : ids ≠ [] := List.ne_nil_of_mem member
  have low : ids.head nonempty ≤ 0 := (sorted.imp Nat.le_of_lt).rel_head member
  rw [List.head?_eq_some_head nonempty]
  congr 1
  omega

/-- The ids on the line of a reachable block end with the block's own id. -/
theorem getLast?_idxOf_reportSort (wf : g.WellFormed) (ran : g.dominators restrict none = .ok run)
    {b : Nat} (reach : g.Reaches g.entry b) :
    ((reportSort g.idTable (run.sets.getD b [])).map g.preorder.idxOf).getLast? =
      some (g.preorder.idxOf b) := by
  refine getLast?_eq_of_forall_le (pairwise_idxOf_reportSort wf ran reach)
    (mem_idxOf_reportSort.mpr ⟨b, self_mem_dominators wf ran reach, rfl⟩) fun i member => ?_
  obtain ⟨d, dominates, rfl⟩ := mem_idxOf_reportSort.mp member
  rcases (dominator_precedes wf ran reach dominates).2 with rfl | before
  · exact Nat.le_refl _
  · exact Nat.le_of_lt before

/-- In restricted mode the ids on the line of a reachable block start with the entry's id, `0`. -/
theorem head?_idxOf_reportSort (wf : g.WellFormed) {run : DominatorRun}
    (ran : g.dominators true none = .ok run) {b : Nat} (reach : g.Reaches g.entry b) :
    ((reportSort g.idTable (run.sets.getD b [])).map g.preorder.idxOf).head? = some 0 := by
  obtain ⟨rest, order⟩ := preorder_eq_cons wf
  have entryId : g.preorder.idxOf g.entry = 0 := by
    rw [order]
    exact List.idxOf_cons_self
  refine head?_eq_zero_of_mem (pairwise_idxOf_reportSort wf ran reach) ?_
  exact mem_idxOf_reportSort.mpr ⟨g.entry, entry_mem_restricted_dominators wf ran reach, entryId⟩

end Dominators

/-- **Dominators precede their block in the pre-order, and the report lists them in order.**
For every graph a build gives and either mode, every dominator `d` of a reachable block `b` is
reachable, with an id (its place in the pre-order) at most the id of `b`, and equal to it only
for `b` itself. So line `k` of the dominator report is the line of the block with id `k`, and
lists the ids of its dominators: ids of reachable blocks, strictly ascending, ending with `k`
and, in restricted mode, starting with the entry's id `0`. -/
theorem dominators_precede_in_preorder {stream : List Instruction}
    {entry : EntryPoint stream.length} {g : Graph} (built : build stream entry = .ok g)
    (restrict : Bool) :
    ∃ run, g.dominators restrict none = .ok run ∧
      (∀ b d, g.Reaches g.entry b → d ∈ run.sets.getD b [] →
        g.Reaches g.entry d ∧ g.preorder.idxOf d ≤ g.preorder.idxOf b ∧
          (g.preorder.idxOf d = g.preorder.idxOf b → d = b)) ∧
      ∀ k (below : k < g.preorder.length), ∃ ids : List Nat,
        (g.dominatorReport run.entries)[k]? =
          some ("Block " ++ toString k ++ ": " ++ ", ".intercalate (ids.map toString)) ∧
        (∀ i, i ∈ ids ↔ ∃ d ∈ run.sets.getD g.preorder[k] [], g.preorder.idxOf d = i) ∧
        ids.Pairwise (· < ·) ∧ (∀ i ∈ ids, i < g.preorder.length) ∧ ids.getLast? = some k ∧
        (restrict = true → ids.head? = some 0) := by
  have wf := wellFormed_of_build built
  obtain ⟨run, ran, inv, _⟩ := dominators_solved wf restrict
  refine ⟨run, ran, fun b d reach member => ?_, fun k below => ?_⟩
  · obtain ⟨reachD, same | before⟩ := dominator_precedes wf ran reach member
    · exact ⟨reachD, by rw [same], fun _ => same⟩
    · exact ⟨reachD, Nat.le_of_lt before, fun same => absurd same (Nat.ne_of_lt before)⟩
  -- the block with id k, and the ids of its dominators in report order
  have reached : g.preorder[k] ∈ g.preorder := List.getElem_mem below
  have reach := (mem_preorder_iff wf).mp reached
  have dominatorIds : ∀ d ∈ reportSort g.idTable (run.sets.getD g.preorder[k] []),
      d ∈ g.preorder := fun d member => (mem_preorder_iff wf).mpr (dominator_precedes wf ran reach
        ((perm_reportSort g.idTable _).subset member)).1
  refine ⟨(reportSort g.idTable (run.sets.getD g.preorder[k] [])).map g.preorder.idxOf, ?_,
    fun i => mem_idxOf_reportSort, pairwise_idxOf_reportSort wf ran reach, fun i member => ?_, ?_,
    fun restricted => ?_⟩
  · rw [getElem?_dominatorReport wf inv.size below, List.map_map]
    congr 3
    refine List.map_congr_left fun d member => ?_
    rw [reportName_idTable wf, if_pos (dominatorIds d member)]
    rfl
  · obtain ⟨d, inDoms, rfl⟩ := List.mem_map.mp member
    exact List.idxOf_lt_length_of_mem (dominatorIds d inDoms)
  · rw [getLast?_idxOf_reportSort wf ran reach, (nodup_preorder g).idxOf_getElem k below]
  · subst restricted
    exact head?_idxOf_reportSort wf ran reach

theorem dominators_precede_in_preorder_of_loopWithDeadCycle :
    ∃ g, build loopWithDeadCycle .first = .ok g ∧
      ∃ run, g.dominators true none = .ok run ∧
        (∀ b d, g.Reaches g.entry b → d ∈ run.sets.getD b [] →
          g.Reaches g.entry d ∧ g.preorder.idxOf d ≤ g.preorder.idxOf b ∧
            (g.preorder.idxOf d = g.preorder.idxOf b → d = b)) ∧
        ∀ k (below : k < g.preorder.length), ∃ ids : List Nat,
          (g.dominatorReport run.entries)[k]? =
            some ("Block " ++ toString k ++ ": " ++ ", ".intercalate (ids.map toString)) ∧
          (∀ i, i ∈ ids ↔ ∃ d ∈ run.sets.getD g.preorder[k] [], g.preorder.idxOf d = i) ∧
          ids.Pairwise (· < ·) ∧ (∀ i ∈ ids, i < g.preorder.length) ∧ ids.getLast? = some k ∧
          (true = true → ids.head? = some 0) := by
  obtain ⟨g, built⟩ : ∃ g, build loopWithDeadCycle .first = .ok g := ⟨_, rfl⟩
  exact ⟨g, built, dominators_precede_in_preorder built true⟩

end Graph

end Flowgraph
