import Flowgraph.Proofs.Dominance.Order
import Flowgraph.Proofs.Dominance.Cap
import Flowgraph.Proofs.Numbering

/-!
**Reporters, the numbering they record, and dominator queries.**

A reporter numbers the graph before it reports, and the graph records that numbering: a later
reporter finds it and numbers nothing again. The reports themselves read each block's id from
the pre-order, not from the record; the record is the pre-order on every graph that only `number`
has numbered, which is every graph the program makes.

* `NumberingCached`: the numbering a graph records, if any, is its pre-order. A built graph has
  none (`numberingCached_of_build`) and numbering keeps it (`NumberingCached.number`);
* `getD_idTable_eq_blockId_number`: on such a graph the id a report gives a block is the id the
  numbering records for it;
* `assignIds_eq_ids`, `assignIds_assignIds`: numbering gives the recorded ids, which are the
  places in the pre-order, and a second call gives the same graph and the same ids;
* `displayNameOf_eq`: the report name of an integer key is the recorded id of the block with
  that index, or `u` and the key when there is none;
* `dominators_none_of_ok`: a run that ends under a cap is the run without one;
* `dominates_self`: every block dominates itself, in either mode, whatever the cap the run ends
  under; `dominates_iff_mem_walks`: in restricted mode the query answers whether a block lies on
  every walk from the entry block to a reachable one.
-/

namespace Flowgraph

namespace Graph

variable {g : Graph}

/-! ### The recorded numbering -/

/-- The numbering a graph records, if any, is its pre-order. -/
def NumberingCached (g : Graph) : Prop :=
  ∀ order, g.numbering = some order → order = g.preorder

theorem numberingCached_of_build {stream : List Instruction} {entry : EntryPoint stream.length}
    (built : build stream entry = .ok g) : g.NumberingCached := by
  intro order recorded
  rw [numbering_of_build built] at recorded
  cases recorded

theorem NumberingCached.number (cached : g.NumberingCached) : g.number.NumberingCached := by
  intro order recorded
  rw [preorder_number]
  cases numbered : g.numbering with
  | none =>
    rw [number_of_numbering_eq_none numbered] at recorded
    exact (Option.some.inj recorded).symm
  | some old =>
    rw [number_of_numbering_eq_some numbered, numbered] at recorded
    obtain rfl := Option.some.inj recorded
    exact cached old numbered

theorem numbering_number (cached : g.NumberingCached) : g.number.numbering = some g.preorder := by
  cases numbered : g.numbering with
  | none => rw [number_of_numbering_eq_none numbered]
  | some order => rw [number_of_numbering_eq_some numbered, numbered, cached order numbered]

/-- **Reports give the ids the numbering records.** On a well formed graph whose recorded
numbering, if any, is its pre-order, the id the report table gives each block is the id that the
numbered graph records for it. -/
theorem getD_idTable_eq_blockId_number (wf : g.WellFormed) (cached : g.NumberingCached)
    (i : Nat) : g.idTable.getD i none = g.number.blockId i := by
  rw [getD_idTable wf i, blockId, numbering_number cached, Option.bind_some]
  by_cases member : i ∈ g.preorder
  · -- the pre-order has no repeats, so the first place of `i` is its only one
    have placed : g.preorder.idxOf? i = some (g.preorder.idxOf i) :=
      (idxOf?_eq_some_iff_of_nodup (nodup_preorder g)).mpr
        ⟨List.idxOf_lt_length_iff.mpr member, List.getElem_idxOf _⟩
    rw [if_pos member, placed]
  · rw [if_neg member, List.idxOf?_eq_none_iff.mpr member]

/-- Numbering gives the ids the numbering records, by id: the places in the pre-order. -/
theorem assignIds_eq_ids (cached : g.NumberingCached) : g.assignIds = (g.number, g.number.ids) := by
  simp only [assignIds, numbering_number cached, Option.getD_some, ids, preorder_number]

/-- **A second call to `assignIds` gives the ids it gave before**, and leaves the graph as it was,
whatever the graph records. -/
theorem assignIds_assignIds (g : Graph) : g.assignIds.1.assignIds = g.assignIds := by
  simp only [assignIds, number_number]

/-- A reporter after another sees the graph the first one numbered, and numbers nothing again. -/
theorem reporting_after_reporting {α β : Type} (report : Graph → α) (report' : Graph → β) :
    (g.reporting report).1.reporting report' = (g.number, report' g.number) := by
  simp only [reporting, number_number]

/-- **The report name of an integer key** is the id the numbering records for the block with that
index; when there is none (a negative key, a key past the blocks, an unreachable block) it is `u`
and the key. -/
theorem displayNameOf_eq (wf : g.WellFormed) (cached : g.NumberingCached) (index : Int) :
    g.displayNameOf index =
      match (if 0 ≤ index then g.number.blockId index.toNat else none) with
      | some k => toString k
      | none => "u" ++ toString index := by
  unfold displayNameOf
  split
  · rename_i nonneg
    rw [displayName, reportName, getD_idTable_eq_blockId_number wf cached]
    cases g.number.blockId index.toNat with
    | some k => rfl
    | none =>
      -- a key that is no id is written as the index it is
      have written : toString index.toNat = toString index := by
        conv_rhs => rw [← Int.toNat_of_nonneg nonneg]
        rfl
      simp only [written]
  · rfl

/-! ### Dominator queries -/

/-- A run that ends under a cap is the run without one. -/
theorem dominators_none_of_ok (wf : g.WellFormed) {restrict : Bool} {cap : Option Int}
    {run : DominatorRun} (ran : g.dominators restrict cap = .ok run) :
    g.dominators restrict none = .ok run := by
  cases cap with
  | none => exact ran
  | some c =>
    obtain ⟨uncapped, ranUncapped, capped⟩ := dominators_capped wf restrict
    rw [capped c] at ran
    split at ran
    · cases ran
    · cases ran
      exact ranUncapped

/-- Every block is in its own set: on every walk to it, and alone in the set of an unreachable
block in restricted mode. -/
theorem mem_own_dominators (wf : g.WellFormed) {restrict : Bool} {run : DominatorRun}
    (ran : g.dominators restrict none = .ok run) {b : Nat} (below : b < g.size) :
    b ∈ run.sets.getD b [] := by
  by_cases reach : g.Reaches g.entry b
  · exact self_mem_dominators wf ran reach
  · cases restrict
    · exact (mem_default_dominators_iff wf ran below).mpr ⟨below, fun _ _ _ walk => walk.last_mem⟩
    · rw [restricted_dominators_of_not_reaches wf ran below reach]
      exact List.mem_singleton_self b

theorem size_sets_of_ok (wf : g.WellFormed) {restrict : Bool} {cap : Option Int}
    {run : DominatorRun} (ran : g.dominators restrict cap = .ok run) : run.sets.size = g.size :=
  (solved_of_dominators wf (dominators_none_of_ok wf ran)).1.size

/-- For the keys of two blocks, the query answers whether the first is in the set of the second. -/
theorem dominates_of_lt (wf : g.WellFormed) {restrict : Bool} {cap : Option Int}
    {run : DominatorRun} (ran : g.dominators restrict cap = .ok run) (a : Nat) {b : Nat}
    (below : b < g.size) : run.dominates a b = .ok ((run.sets.getD b []).contains a) := by
  have inRange : b < run.sets.size := size_sets_of_ok wf ran ▸ below
  simp only [DominatorRun.dominates, DominatorRun.dominatorsOf, Int.natCast_nonneg, true_and,
    Int.toNat_natCast, if_pos inRange, bind, Except.bind, pure, Except.pure, decide_true,
    Bool.true_and]

/-- **Every block dominates itself**, in either mode and under any cap the run ends under. -/
theorem dominates_self (wf : g.WellFormed) {restrict : Bool} {cap : Option Int}
    {run : DominatorRun} (ran : g.dominators restrict cap = .ok run) {b : Nat} (below : b < g.size) :
    run.dominates b b = .ok true := by
  rw [dominates_of_lt wf ran b below,
    List.contains_iff_mem.mpr (mem_own_dominators wf (dominators_none_of_ok wf ran) below)]

/-- **The query answers dominance.** In restricted mode, under any cap the run ends under, a block
dominates a block reachable from the entry block exactly when it lies on every walk from the
entry block to it. -/
theorem dominates_iff_mem_walks (wf : g.WellFormed) {cap : Option Int} {run : DominatorRun}
    (ran : g.dominators true cap = .ok run) (a : Nat) {b : Nat} (reach : g.Reaches g.entry b) :
    run.dominates a b = .ok true ↔ ∀ path, g.Walk g.entry b path → a ∈ path := by
  rw [dominates_of_lt wf ran a (wf.reaches_lt wf.entry_lt reach), Except.ok.injEq,
    List.contains_iff_mem]
  exact mem_restricted_dominators_iff wf (dominators_none_of_ok wf ran) reach

end Graph

end Flowgraph
