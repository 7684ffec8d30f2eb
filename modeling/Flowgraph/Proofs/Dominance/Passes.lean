import Mathlib.Data.List.Sort
import Mathlib.Data.List.Perm.Subperm
import Flowgraph.Proofs.Dominance.Paths

/-!
**The dominator passes end within one pass per block of the scope.**

The passes visit the blocks of the scope in index order and replace each set in place, so a
block may see the sets of blocks visited before it in the same pass already shrunk; that only
helps. The depth of a rooted chain counts its blocks other than the entry block.

* `settled_sweep`: after `t` passes, the set of every block of the scope lies inside each rooted
  chain to it of depth at most `t` (`Settled`); a pass carries this one block further along every
  chain, through the predecessor the chain ends with;
* `Rooted.exists_nodup`: a rooted chain that repeats a block can be cut down to one without
  repeats, within it, whose depth is below the number of blocks of the scope;
* `solved_of_settled`: so after one pass fewer than the scope has blocks, the sets solve the
  dominator equations, and the next pass changes nothing (`sweep_of_solved`);
* `passes_le_length`: the passes end without fault after at most as many passes as the scope has
  blocks, the final quiet pass included;
* `dominator_passes_le`: for every graph a build gives, that is at most `n` passes over its `n`
  blocks in default mode and at most one per reachable block in restricted mode, so the default
  cap `n * n + 2` is never reached.
-/

namespace Flowgraph

namespace Dominance

/-- The number of blocks of a chain other than the entry block. -/
def depth (entry : Nat) (chain : List Nat) : Nat := (chain.filter fun x => x ≠ entry).length

theorem depth_append_singleton {entry b : Nat} (chain : List Nat) (other : b ≠ entry) :
    depth entry (chain ++ [b]) = depth entry chain + 1 := by
  simp [depth, List.filter_append, other]

section Problem

variable {count entry : Nat} {scope : List Nat} {preds : Array (List Nat)}

/-! ### Rooted chains -/

theorem Rooted.last_mem {b : Nat} {chain : List Nat} (rooted : Rooted entry scope preds b chain) :
    b ∈ chain := by
  cases rooted with
  | atEntry => exact List.mem_singleton_self entry
  | orphan => exact List.mem_singleton_self b
  | step => exact List.mem_append_right _ (List.mem_singleton_self b)

/-- The blocks of a rooted chain to a block of the scope lie in the scope. -/
theorem Rooted.mem_scope (shape : Scoped count entry scope preds) {b : Nat} {chain : List Nat}
    (rooted : Rooted entry scope preds b chain) : b ∈ scope → ∀ x ∈ chain, x ∈ scope := by
  induction rooted with
  | atEntry =>
    intro _ x inChain
    rw [List.mem_singleton.mp inChain]
    exact shape.entry_mem
  | orphan inScope _ =>
    intro _ x inChain
    rw [List.mem_singleton.mp inChain]
    exact inScope
  | @step p b chain _ pred ih =>
    intro member x inChain
    rcases List.mem_append.mp inChain with earlier | last
    · exact ih (shape.preds_mem b p pred) x earlier
    · rw [List.mem_singleton.mp last]
      exact member

/-- A rooted chain through a block has a prefix that is a rooted chain to that block. -/
theorem Rooted.prefix_of_mem {b x : Nat} {chain : List Nat}
    (rooted : Rooted entry scope preds b chain) :
    x ∈ chain → ∃ pre, Rooted entry scope preds x pre ∧ pre <+: chain := by
  induction rooted with
  | atEntry =>
    intro member
    rw [List.mem_singleton.mp member]
    exact ⟨_, .atEntry, List.prefix_refl _⟩
  | orphan inScope empty =>
    intro member
    rw [List.mem_singleton.mp member]
    exact ⟨_, .orphan inScope empty, List.prefix_refl _⟩
  | step earlier pred ih =>
    intro member
    rcases List.mem_append.mp member with inEarlier | last
    · obtain ⟨pre, rootedPre, leading⟩ := ih inEarlier
      exact ⟨pre, rootedPre, leading.trans (List.prefix_append _ _)⟩
    · rw [List.mem_singleton.mp last]
      exact ⟨_, earlier.step pred, List.prefix_refl _⟩

/-- **A rooted chain can be cut down to one without repeats**, to the same block and through
blocks of the first one only. -/
theorem Rooted.exists_nodup {b : Nat} {chain : List Nat} (rooted : Rooted entry scope preds b chain) :
    ∃ short, Rooted entry scope preds b short ∧ short.Nodup ∧ short ⊆ chain := by
  induction rooted with
  | atEntry => exact ⟨_, .atEntry, List.nodup_singleton _, List.Subset.refl _⟩
  | orphan inScope empty => exact ⟨_, .orphan inScope empty, List.nodup_singleton _, List.Subset.refl _⟩
  | @step p b chain _ pred ih =>
    obtain ⟨short, rootedShort, distinct, sub⟩ := ih
    by_cases repeated : b ∈ short
    · -- the short chain already passes `b`: keep it up to there
      obtain ⟨pre, rootedPre, leading⟩ := rootedShort.prefix_of_mem repeated
      exact ⟨pre, rootedPre, distinct.sublist leading.sublist,
        fun x inPre => List.mem_append_left _ (sub (leading.subset inPre))⟩
    · refine ⟨short ++ [b], rootedShort.step pred, ?_, fun x inShort => ?_⟩
      · exact List.nodup_append.mpr ⟨distinct, List.nodup_singleton b,
          fun x inShort y last same => repeated (by simp_all)⟩
      · rcases List.mem_append.mp inShort with earlier | last
        · exact List.mem_append_left _ (sub earlier)
        · exact List.mem_append_right _ last

/-- A chain without repeats through blocks of the scope has depth below the size of the scope. -/
theorem depth_lt_length (shape : Scoped count entry scope preds) {chain : List Nat}
    (distinct : chain.Nodup) (inScope : ∀ x ∈ chain, x ∈ scope) : depth entry chain < scope.length := by
  have sub : (chain.filter fun x => x ≠ entry).Subperm (scope.erase entry) := by
    refine List.subperm_of_subset (distinct.filter _) fun x member => ?_
    have ⟨inChain, other⟩ := List.mem_filter.mp member
    exact (List.mem_erase_of_ne (by simpa using other)).mpr (inScope x inChain)
  have erased := List.length_erase_of_mem shape.entry_mem
  have positive := List.length_pos_of_mem shape.entry_mem
  have shorter := sub.length_le
  unfold depth
  omega

/-! ### Settled sets -/

/-- The set of block `b` lies inside every rooted chain to `b` of depth at most `t`. -/
def WithinChains (entry : Nat) (scope : List Nat) (preds : Array (List Nat)) (t : Nat)
    (sets : Array (List Nat)) (b : Nat) : Prop :=
  ∀ chain, Rooted entry scope preds b chain → depth entry chain ≤ t →
    ∀ x ∈ sets.getD b [], x ∈ chain

/-- Every block of the scope has its set inside each rooted chain to it of depth at most `t`:
what `t` passes achieve. -/
def Settled (entry : Nat) (scope : List Nat) (preds : Array (List Nat)) (t : Nat)
    (sets : Array (List Nat)) : Prop :=
  ∀ b ∈ scope, WithinChains entry scope preds t sets b

theorem WithinChains.of_subset {t b : Nat} {small large : Array (List Nat)}
    (within : WithinChains entry scope preds t large b)
    (sub : ∀ x ∈ small.getD b [], x ∈ large.getD b []) : WithinChains entry scope preds t small b :=
  fun chain rooted shallow x member => within chain rooted shallow x (sub x member)

theorem Settled.mono {t u : Nat} {sets : Array (List Nat)} (settled : Settled entry scope preds t sets)
    (le : u ≤ t) : Settled entry scope preds u sets :=
  fun b member chain rooted shallow => settled b member chain rooted (Nat.le_trans shallow le)

/-- The entry block keeps its own singleton, which every chain to it ends with. -/
theorem withinChains_entry {t : Nat} {sets : Array (List Nat)}
    (inv : Invariant count entry scope preds sets) : WithinChains entry scope preds t sets entry := by
  intro chain rooted _ x member
  rw [inv.atEntry, List.mem_singleton] at member
  rw [member]
  exact rooted.last_mem

/-- **One more pass settles a block one block further.** The new value of a block other than the
entry block, computed from sets inside sets settled to depth `t`, lies inside every rooted chain
to it of depth at most `t + 1`: such a chain is the block alone, or a chain of depth at most `t`
to one of its predecessors followed by the block. -/
theorem withinChains_update (shape : Scoped count entry scope preds) {t : Nat}
    {settledSets sets : Array (List Nat)} (settled : Settled entry scope preds t settledSets)
    (below : ∀ q, ∀ x ∈ sets.getD q [], x ∈ settledSets.getD q []) {b : Nat} (other : b ≠ entry) :
    ∀ chain, Rooted entry scope preds b chain → depth entry chain ≤ t + 1 →
      ∀ x ∈ update sets b (preds.getD b []), x ∈ chain := by
  intro chain rooted shallow x inUpdate
  cases rooted with
  | atEntry => exact absurd rfl other
  | orphan _ empty =>
    rw [empty] at inUpdate
    exact inUpdate
  | @step p _ earlier rootedEarlier pred =>
    rw [depth_append_singleton _ other] at shallow
    rcases mem_update.mp inUpdate with rfl | ⟨_, all⟩
    · exact List.mem_append_right _ (List.mem_singleton_self x)
    · have inEarlier := settled p (shape.preds_mem b p pred) earlier rootedEarlier (by omega) x
        (below p x (all p pred))
      exact List.mem_append_left _ inEarlier

/-! ### Visits and passes -/

theorem getD_visit_self (shape : Scoped count entry scope preds) {sets : Array (List Nat)}
    (inv : Invariant count entry scope preds sets) {raised : Bool} {b : Nat} (member : b ∈ scope)
    (other : b ≠ entry) :
    (visit preds entry (sets, raised) b).1.getD b [] = update sets b (preds.getD b []) := by
  simp only [visit, if_neg other]
  split
  · rename_i same
    exact same.symm
  · exact getD_setIfInBounds_self (inv.size ▸ shape.lt_count b member)

/-- A visit only shrinks the sets. -/
theorem visit_subset (shape : Scoped count entry scope preds) {state : Array (List Nat) × Bool}
    (inv : Invariant count entry scope preds state.1) {b : Nat} (member : b ∈ scope) :
    ∀ q, ∀ x ∈ (visit preds entry state b).1.getD q [], x ∈ state.1.getD q [] := by
  obtain ⟨sets, raised⟩ := state
  intro q x inSet
  by_cases isEntry : b = entry
  · simpa only [visit, if_pos isEntry] using inSet
  · by_cases same : q = b
    · rw [same, getD_visit_self shape inv member isEntry] at inSet
      rw [same]
      exact inv.above b member isEntry x inSet
    · have frame : (visit preds entry (sets, raised) b).1.getD q [] = sets.getD q [] := by
        simp only [visit, if_neg isEntry]
        split
        · rfl
        · exact getD_setIfInBounds_of_ne same
      rwa [frame] at inSet

/-- **A run of visits settles each visited block one block further**, from sets inside sets
settled to depth `t`; and it only shrinks the sets. -/
theorem fold_visit_within (shape : Scoped count entry scope preds) {t : Nat}
    {settledSets : Array (List Nat)} (settled : Settled entry scope preds t settledSets)
    (active : List Nat) (sub : ∀ b ∈ active, b ∈ scope) (state : Array (List Nat) × Bool)
    (inv : Invariant count entry scope preds state.1)
    (below : ∀ q, ∀ x ∈ state.1.getD q [], x ∈ settledSets.getD q []) :
    (∀ q, ∀ x ∈ (active.foldl (visit preds entry) state).1.getD q [], x ∈ state.1.getD q []) ∧
      ∀ b ∈ active, b ≠ entry →
        WithinChains entry scope preds (t + 1) (active.foldl (visit preds entry) state).1 b := by
  induction active generalizing state with
  | nil => exact ⟨fun _ _ member => member, fun _ member => absurd member List.not_mem_nil⟩
  | cons b rest ih =>
    rw [List.foldl_cons]
    have member := sub b List.mem_cons_self
    have shrink := visit_subset shape inv member
    obtain ⟨shrinkRest, withinRest⟩ :=
      ih (fun c later => sub c (List.mem_cons_of_mem b later)) (visit preds entry state b)
        (visit_spec shape inv member).1 fun q x inSet => below q x (shrink q x inSet)
    refine ⟨fun q x inSet => shrink q x (shrinkRest q x inSet), fun c visited other => ?_⟩
    rcases List.mem_cons.mp visited with rfl | later
    · -- the visit gives `c` its new value, and the later visits only shrink it
      have atVisit : WithinChains entry scope preds (t + 1) (visit preds entry state c).1 c := by
        intro chain rooted shallow x inSet
        obtain ⟨sets, raised⟩ := state
        rw [getD_visit_self shape inv member other] at inSet
        exact withinChains_update shape settled below other chain rooted shallow x inSet
      exact atVisit.of_subset (shrinkRest c)
    · exact withinRest c later other

/-- **A pass settles the sets one block further.** -/
theorem settled_sweep (shape : Scoped count entry scope preds) {t : Nat} {sets : Array (List Nat)}
    (inv : Invariant count entry scope preds sets) (settled : Settled entry scope preds t sets) :
    Settled entry scope preds (t + 1) (sweep preds entry scope sets).1 := by
  obtain ⟨_, within⟩ :=
    fold_visit_within shape settled scope (fun _ member => member) (sets, false) inv
      fun _ _ member => member
  have invAfter := (fold_visit shape scope (fun _ member => member) (sets, false) inv).1
  intro b member
  by_cases isEntry : b = entry
  · rw [isEntry]
    exact withinChains_entry invAfter
  · exact within b member isEntry

theorem settled_initial (shape : Scoped count entry scope preds) :
    Settled entry scope preds 0 (initial count entry scope) := by
  intro b member chain rooted shallow
  by_cases isEntry : b = entry
  · subst isEntry
    exact withinChains_entry (initial_invariant shape) chain rooted shallow
  · -- a chain to another block holds that block, so its depth is positive
    have deep : 0 < depth entry chain :=
      List.length_pos_of_mem (List.mem_filter.mpr ⟨rooted.last_mem, by simpa using isEntry⟩)
    omega

/-- **Sets settled to one less than the size of the scope solve the equations**: every rooted
chain holds one without repeats, whose depth is at most that. -/
theorem solved_of_settled (shape : Scoped count entry scope preds) {sets : Array (List Nat)}
    (inv : Invariant count entry scope preds sets)
    (settled : Settled entry scope preds (scope.length - 1) sets) :
    Solved entry scope preds sets := by
  intro b member other
  refine List.Pairwise.eq_of_mem_iff (pairwise_update inv.sorted) (inv.sorted b) fun x =>
    ⟨inv.above b member other x, fun inSet => ?_⟩
  have chains : OnEveryChain entry scope preds x b := by
    intro chain rooted
    obtain ⟨short, rootedShort, distinct, sub⟩ := rooted.exists_nodup
    have shallow := depth_lt_length shape distinct (rootedShort.mem_scope shape member)
    exact sub (settled b member short rootedShort (by omega) x inSet)
  exact shape.mem_update_of_chains inv.below member (inv.within b member x inSet) chains

/-- A pass over solved sets changes nothing. -/
theorem sweep_of_solved {sets : Array (List Nat)} (solved : Solved entry scope preds sets) :
    sweep preds entry scope sets = (sets, false) := by
  have quiet : ∀ active : List Nat, (∀ b ∈ active, b ∈ scope) →
      active.foldl (visit preds entry) (sets, false) = (sets, false) := by
    intro active
    induction active with
    | nil => exact fun _ => rfl
    | cons b rest ih =>
      intro sub
      have unchanged : visit preds entry (sets, false) b = (sets, false) := by
        by_cases isEntry : b = entry
        · simp only [visit, if_pos isEntry]
        · simp only [visit, if_neg isEntry, if_pos (solved b (sub b List.mem_cons_self) isEntry)]
      rw [List.foldl_cons, unchanged]
      exact ih fun c later => sub c (List.mem_cons_of_mem b later)
  exact quiet scope fun _ member => member

/-- **The passes end within `r + 1` more passes** from sets settled to depth `t`, when `t + r + 1`
reaches the size of the scope and the cap leaves room for them. -/
theorem iterate_passes_le (shape : Scoped count entry scope preds) (r : Nat) :
    ∀ (t fuel passes : Nat) (sets : Array (List Nat)) (history : List (List Nat)),
      Invariant count entry scope preds sets → Settled entry scope preds t sets →
      scope.length ≤ t + r + 1 → r < fuel →
      ∃ run, iterate (sweep preds entry scope) count fuel passes sets history = .ok run ∧
        passes < run.passes ∧ run.passes ≤ passes + r + 1 := by
  induction r with
  | zero =>
    intro t fuel passes sets history inv settled enough room
    obtain ⟨fuel, rfl⟩ : ∃ rest, fuel = rest + 1 := ⟨fuel - 1, by omega⟩
    -- the sets are solved already, so this pass is the quiet one
    have solved := solved_of_settled shape inv (settled.mono (by omega))
    rw [iterate, sweep_of_solved solved]
    exact ⟨_, rfl, Nat.lt_succ_self passes, Nat.le_refl _⟩
  | succ r ih =>
    intro t fuel passes sets history inv settled enough room
    obtain ⟨fuel, rfl⟩ : ∃ rest, fuel = rest + 1 := ⟨fuel - 1, by omega⟩
    have invNext : Invariant count entry scope preds (sweep preds entry scope sets).1 :=
      (fold_visit shape scope (fun _ member => member) (sets, false) inv).1
    have settledNext := settled_sweep shape inv settled
    rw [iterate]
    generalize sweep preds entry scope sets = result at invNext settledNext ⊢
    obtain ⟨next, changed⟩ := result
    cases changed with
    | false => exact ⟨_, rfl, Nat.lt_succ_self passes, by dsimp only; omega⟩
    | true =>
      obtain ⟨run, ran, after, within⟩ :=
        ih (t + 1) fuel (passes + 1) next _ invNext settledNext (by omega) (by omega)
      exact ⟨run, ran, by omega, by omega⟩

/-- **From the initial sets, with the default cap, the passes end after at most as many passes
as the scope has blocks**, the final quiet pass included. -/
theorem passes_le_length (shape : Scoped count entry scope preds) :
    ∃ run, iterate (sweep preds entry scope) count (count * count + 2) 0
        (initial count entry scope) [sizes (initial count entry scope)] = .ok run ∧
      1 ≤ run.passes ∧ run.passes ≤ scope.length := by
  have positive := List.length_pos_of_mem shape.entry_mem
  have fits : scope.length ≤ count := by
    have sub : scope.Subperm (List.range count) :=
      List.subperm_of_subset (shape.sorted.imp Nat.ne_of_lt) fun x member =>
        List.mem_range.mpr (shape.lt_count x member)
    simpa using sub.length_le
  have room : scope.length - 1 < count * count + 2 := by
    have := Nat.le_mul_self count
    omega
  obtain ⟨run, ran, after, within⟩ :=
    iterate_passes_le shape (scope.length - 1) 0 _ 0 _ _ (initial_invariant shape)
      (settled_initial shape) (by omega) room
  exact ⟨run, ran, after, by omega⟩

end Problem

end Dominance

namespace Graph

open Dominance

/-- **The dominator passes of a built graph end within one pass per block they visit**, the
final quiet pass included: at most `n` passes over the `n` blocks in default mode, and at most
one per reachable block in restricted mode. So the default cap `n * n + 2` is never reached, and
the passes never fault without an explicit cap. -/
theorem dominator_passes_le {stream : List Instruction} {entry : EntryPoint stream.length}
    {g : Graph} (built : build stream entry = .ok g) (restrict : Bool) :
    ∃ run, g.dominators restrict none = .ok run ∧ 1 ≤ run.passes ∧
      run.passes ≤ (if restrict then (g.reachableFrom g.entry).length else g.size) ∧
      run.passes < g.size * g.size + 2 := by
  have wf := wellFormed_of_build built
  have shape := scoped_dominatorScope wf restrict
  obtain ⟨run, ran, after, within⟩ := passes_le_length shape
  have scopeLength : (g.dominatorScope restrict).length =
      if restrict then (g.reachableFrom g.entry).length else g.size := by
    cases restrict <;> simp [dominatorScope]
  have fits : (g.dominatorScope restrict).length ≤ g.size := by
    have sub : (g.dominatorScope restrict).Subperm (List.range g.size) :=
      List.subperm_of_subset (shape.sorted.imp Nat.ne_of_lt) fun x member =>
        List.mem_range.mpr (shape.lt_count x member)
    simpa using sub.length_le
  have cap := Nat.le_mul_self g.size
  refine ⟨run, by rw [dominators_none]; exact ran, after, scopeLength ▸ within, by omega⟩

theorem dominator_passes_le_of_loopWithDeadCycle :
    ∃ g, build loopWithDeadCycle .first = .ok g ∧ ∀ restrict : Bool,
      ∃ run, g.dominators restrict none = .ok run ∧ 1 ≤ run.passes ∧
        run.passes ≤ (if restrict then (g.reachableFrom g.entry).length else g.size) ∧
        run.passes < g.size * g.size + 2 := by
  obtain ⟨g, built⟩ : ∃ g, build loopWithDeadCycle .first = .ok g := ⟨_, rfl⟩
  exact ⟨g, built, dominator_passes_le built⟩

end Graph

end Flowgraph
