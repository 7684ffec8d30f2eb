import Mathlib.Algebra.Order.BigOperators.Group.List
import Mathlib.Data.List.Perm.Subperm
import Mathlib.Algebra.Order.Group.Nat
import Mathlib.Algebra.GroupWithZero.Nat
import Flowgraph.Dominance

/-!
**The dominator passes reach the greatest solution of the dominator equations.**

The passes solve a problem given by a block count, an entry block, a scope of blocks and, for each
block, its predecessors in the scope (`Scoped`). A rooted chain (`Rooted`) starts at a root, the
entry block or a block of the scope without predecessors, and goes on from a block to a block it
precedes; its blocks are listed from the root.

* `Invariant`: what holds of the sets before and after every visit. They are strictly increasing
  lists; the entry block and the blocks outside the scope keep their singletons; the sets of the
  scope stay inside it; every set contains its own new value (`above`), and every set contains the
  blocks of the scope that lie on all rooted chains to its block (`below`);
* `visit_invariant`: a visit keeps the invariant, and replaces a set only by a strictly shorter one;
* `iterate_ok`: from sets whose total size is below the number of passes allowed, the passes end
  without fault, in sets that solve the equations (`Solved`);
* `mem_of_solved_iff`: in such sets, the set of a block of the scope holds exactly the blocks of the
  scope that lie on every rooted chain to it;
* `passes_solve`: the passes from the initial sets, with the default cap `n * n + 2`, end so.
-/

namespace Flowgraph

namespace Dominance

/-! ### The set operations -/

@[simp] theorem mem_insertSorted {x y : Nat} {l : List Nat} :
    x ∈ insertSorted y l ↔ x = y ∨ x ∈ l := by
  induction l with
  | nil => simp [insertSorted]
  | cons z rest ih =>
    rw [insertSorted]
    split_ifs with before same
    · exact List.mem_cons
    · subst same
      simp
    · rw [List.mem_cons, ih, List.mem_cons, or_left_comm]

theorem pairwise_insertSorted {y : Nat} {l : List Nat} (sorted : l.Pairwise (· < ·)) :
    (insertSorted y l).Pairwise (· < ·) := by
  induction l with
  | nil => simp [insertSorted]
  | cons z rest ih =>
    obtain ⟨head, tail⟩ := List.pairwise_cons.mp sorted
    rw [insertSorted]
    split_ifs with before same
    · refine List.pairwise_cons.mpr ⟨fun w member => ?_, sorted⟩
      rcases List.mem_cons.mp member with rfl | later
      · exact before
      · exact Nat.lt_trans before (head w later)
    · exact sorted
    · refine List.pairwise_cons.mpr ⟨fun w member => ?_, ih tail⟩
      rcases mem_insertSorted.mp member with rfl | later
      · omega
      · exact head w later

@[simp] theorem mem_intersect {x : Nat} {a b : List Nat} : x ∈ intersect a b ↔ x ∈ a ∧ x ∈ b := by
  simp [intersect]

theorem mem_foldl_intersect {sets : Array (List Nat)} {x : Nat} (rest acc : List Nat) :
    x ∈ rest.foldl (fun acc q => intersect acc (sets.getD q [])) acc ↔
      x ∈ acc ∧ ∀ q ∈ rest, x ∈ sets.getD q [] := by
  induction rest generalizing acc with
  | nil => simp
  | cons q rest ih =>
    rw [List.foldl_cons, ih, mem_intersect]
    simp only [List.mem_cons, forall_eq_or_imp]
    exact and_assoc

theorem pairwise_foldl_intersect {sets : Array (List Nat)} (rest acc : List Nat)
    (sorted : acc.Pairwise (· < ·)) :
    (rest.foldl (fun acc q => intersect acc (sets.getD q [])) acc).Pairwise (· < ·) := by
  induction rest generalizing acc with
  | nil => exact sorted
  | cons q rest ih => exact ih _ (sorted.filter _)

/-- **The new value of a set**: the block itself, and the blocks in the sets of all its
predecessors when it has some. -/
theorem mem_update {sets : Array (List Nat)} {b x : Nat} {preds : List Nat} :
    x ∈ update sets b preds ↔ x = b ∨ (preds ≠ [] ∧ ∀ q ∈ preds, x ∈ sets.getD q []) := by
  cases preds with
  | nil => simp [update]
  | cons p rest =>
    simp only [update, mem_insertSorted, mem_foldl_intersect, ne_eq, reduceCtorEq,
      not_false_eq_true, List.mem_cons, forall_eq_or_imp, true_and]

theorem pairwise_update {sets : Array (List Nat)} {b : Nat} {preds : List Nat}
    (sorted : ∀ q, (sets.getD q []).Pairwise (· < ·)) : (update sets b preds).Pairwise (· < ·) := by
  cases preds with
  | nil => exact List.pairwise_singleton _ b
  | cons p rest => exact pairwise_insertSorted (pairwise_foldl_intersect rest _ (sorted p))

/-- The new value grows with the sets it is computed from. -/
theorem update_mono {smaller larger : Array (List Nat)}
    (sub : ∀ q, ∀ x ∈ smaller.getD q [], x ∈ larger.getD q []) {b x : Nat} {preds : List Nat}
    (member : x ∈ update smaller b preds) : x ∈ update larger b preds := by
  rcases mem_update.mp member with rfl | ⟨nonempty, all⟩
  · exact mem_update.mpr (.inl rfl)
  · exact mem_update.mpr (.inr ⟨nonempty, fun q inPreds => sub q x (all q inPreds)⟩)

/-- A strictly increasing list inside another one, and different from it, is shorter. -/
theorem length_lt_of_subset {small large : List Nat} (sortedSmall : small.Pairwise (· < ·))
    (sortedLarge : large.Pairwise (· < ·)) (sub : small ⊆ large) (different : small ≠ large) :
    small.length < large.length := by
  have subperm : small.Subperm large :=
    List.subperm_of_subset (sortedSmall.imp Nat.ne_of_lt) sub
  refine Nat.lt_of_not_le fun longer => different ?_
  exact (subperm.perm_of_length_le longer).eq_of_pairwise (fun _ _ _ _ lt gt => by omega)
    sortedSmall sortedLarge

/-! ### Sets in an array -/

theorem getD_setIfInBounds_self {α : Type} {xs : Array α} {b : Nat} {value fallback : α}
    (below : b < xs.size) : (xs.setIfInBounds b value).getD b fallback = value := by
  simp [below]

theorem getD_setIfInBounds_of_ne {α : Type} {xs : Array α} {b c : Nat} {value fallback : α}
    (other : c ≠ b) : (xs.setIfInBounds b value).getD c fallback = xs.getD c fallback := by
  simp [Ne.symm other]

/-- The total size of the sets. -/
def total (sets : Array (List Nat)) : Nat := (sizes sets).sum

theorem sum_set_add {l : List Nat} {i : Nat} (below : i < l.length) (value : Nat) :
    (l.set i value).sum + l[i] = l.sum + value := by
  induction l generalizing i with
  | nil => exact absurd below (Nat.not_lt_zero i)
  | cons x rest ih =>
    cases i with
    | zero => simp; omega
    | succ i =>
      simp only [List.set_cons_succ, List.sum_cons, List.getElem_cons_succ]
      have := ih (Nat.lt_of_succ_lt_succ below)
      omega

theorem total_setIfInBounds {sets : Array (List Nat)} {b : Nat} {value : List Nat}
    (below : b < sets.size) :
    total (sets.setIfInBounds b value) + (sets.getD b []).length = total sets + value.length := by
  have lengthBelow : b < (sizes sets).length := by simpa [sizes] using below
  have entry : (sizes sets)[b] = (sets.getD b []).length := by simp [sizes, below]
  have sizesSet : sizes (sets.setIfInBounds b value) = (sizes sets).set b value.length := by
    simp [sizes, List.map_set]
  rw [total, total, sizesSet, ← entry]
  exact sum_set_add lengthBelow value.length

/-! ### The problem and the invariant -/

/-- The shape of a problem the passes solve: the entry block is in the scope, the scope is a
strictly increasing list of blocks, and predecessors are taken in the scope only. -/
structure Scoped (count entry : Nat) (scope : List Nat) (preds : Array (List Nat)) : Prop where
  entry_mem : entry ∈ scope
  lt_count : ∀ x ∈ scope, x < count
  sorted : scope.Pairwise (· < ·)
  preds_mem : ∀ b, ∀ q ∈ preds.getD b [], q ∈ scope

/-- `Rooted entry scope preds b chain`: `chain` runs from a root to block `b`, each block after the
first having the one before it among its predecessors. The roots are the entry block and the
blocks of the scope without predecessors. -/
inductive Rooted (entry : Nat) (scope : List Nat) (preds : Array (List Nat)) :
    Nat → List Nat → Prop
  | atEntry : Rooted entry scope preds entry [entry]
  | orphan {r : Nat} : r ∈ scope → preds.getD r [] = [] → Rooted entry scope preds r [r]
  | step {p b : Nat} {chain : List Nat} :
      Rooted entry scope preds p chain → p ∈ preds.getD b [] →
        Rooted entry scope preds b (chain ++ [b])

/-- Block `d` lies on every rooted chain to block `b`. -/
def OnEveryChain (entry : Nat) (scope : List Nat) (preds : Array (List Nat)) (d b : Nat) : Prop :=
  ∀ chain, Rooted entry scope preds b chain → d ∈ chain

/-- The sets solve the dominator equations: the set of each block of the scope other than the
entry block equals its new value. -/
def Solved (entry : Nat) (scope : List Nat) (preds : Array (List Nat)) (sets : Array (List Nat)) :
    Prop :=
  ∀ b ∈ scope, b ≠ entry → update sets b (preds.getD b []) = sets.getD b []

/-- What holds of the sets before and after every visit. -/
structure Invariant (count entry : Nat) (scope : List Nat) (preds : Array (List Nat))
    (sets : Array (List Nat)) : Prop where
  size : sets.size = count
  sorted : ∀ b, (sets.getD b []).Pairwise (· < ·)
  atEntry : sets.getD entry [] = [entry]
  outside : ∀ b < count, b ∉ scope → sets.getD b [] = [b]
  within : ∀ b ∈ scope, ∀ x ∈ sets.getD b [], x ∈ scope
  above : ∀ b ∈ scope, b ≠ entry → ∀ x ∈ update sets b (preds.getD b []), x ∈ sets.getD b []
  below : ∀ b ∈ scope, ∀ d ∈ scope, OnEveryChain entry scope preds d b → d ∈ sets.getD b []

section Problem

variable {count entry : Nat} {scope : List Nat} {preds : Array (List Nat)}

/-- A block off the last block of a chain lies on the chain before it. -/
theorem OnEveryChain.of_pred {d b q : Nat} (chains : OnEveryChain entry scope preds d b)
    (other : d ≠ b) (pred : q ∈ preds.getD b []) : OnEveryChain entry scope preds d q := by
  intro chain rooted
  rcases List.mem_append.mp (chains _ (rooted.step pred)) with earlier | last
  · exact earlier
  · exact absurd (List.mem_singleton.mp last) other

theorem Scoped.update_within (shape : Scoped count entry scope preds) {sets : Array (List Nat)}
    (within : ∀ b ∈ scope, ∀ x ∈ sets.getD b [], x ∈ scope) {b : Nat} (member : b ∈ scope) :
    ∀ x ∈ update sets b (preds.getD b []), x ∈ scope := by
  intro x inUpdate
  rcases mem_update.mp inUpdate with rfl | ⟨nonempty, all⟩
  · exact member
  · obtain ⟨q, pred⟩ := List.exists_mem_of_ne_nil _ nonempty
    exact within q (shape.preds_mem b q pred) x (all q pred)

/-- The new value of a set keeps every block of the scope on all rooted chains to it. -/
theorem Scoped.mem_update_of_chains (shape : Scoped count entry scope preds)
    {sets : Array (List Nat)}
    (below : ∀ b ∈ scope, ∀ d ∈ scope, OnEveryChain entry scope preds d b → d ∈ sets.getD b [])
    {b d : Nat} (member : b ∈ scope) (inScope : d ∈ scope)
    (chains : OnEveryChain entry scope preds d b) : d ∈ update sets b (preds.getD b []) := by
  by_cases same : d = b
  · exact mem_update.mpr (.inl same)
  · by_cases empty : preds.getD b [] = []
    · -- a block without predecessors is a root, and its chain `[b]` avoids `d`
      exact absurd (List.mem_singleton.mp (chains _ (.orphan member empty))) same
    · refine mem_update.mpr (.inr ⟨empty, fun q pred => ?_⟩)
      exact below q (shape.preds_mem b q pred) d inScope (chains.of_pred same pred)

theorem getD_initial (i : Nat) :
    (initial count entry scope).getD i [] =
      if i < count then (if i = entry then [entry] else if scope.contains i then scope else [i])
      else [] := by
  by_cases below : i < count <;> simp [initial, below]

theorem initial_invariant (shape : Scoped count entry scope preds) :
    Invariant count entry scope preds (initial count entry scope) := by
  have entryBelow : entry < count := shape.lt_count entry shape.entry_mem
  have atEntry : (initial count entry scope).getD entry [] = [entry] := by
    rw [getD_initial, if_pos entryBelow, if_pos rfl]
  have inScope : ∀ b ∈ scope, b ≠ entry → (initial count entry scope).getD b [] = scope := by
    intro b member other
    rw [getD_initial, if_pos (shape.lt_count b member), if_neg other,
      if_pos (List.elem_iff.mpr member)]
  have within : ∀ b ∈ scope, ∀ x ∈ (initial count entry scope).getD b [], x ∈ scope := by
    intro b member x inSet
    by_cases isEntry : b = entry
    · rw [isEntry, atEntry] at inSet
      rw [List.mem_singleton.mp inSet]
      exact shape.entry_mem
    · rw [inScope b member isEntry] at inSet
      exact inSet
  refine ⟨by simp [initial], fun b => ?_, atEntry, fun b below outside => ?_, within,
    fun b member other x inUpdate => ?_, fun b member d inScope' chains => ?_⟩
  · rw [getD_initial]
    split_ifs
    · exact List.pairwise_singleton _ entry
    · exact shape.sorted
    · exact List.pairwise_singleton _ b
    · exact List.Pairwise.nil
  · have other : b ≠ entry := fun same => outside (same ▸ shape.entry_mem)
    rw [getD_initial, if_pos below, if_neg other, if_neg (by simpa using outside)]
  · rw [inScope b member other]
    exact shape.update_within within member x inUpdate
  · by_cases isEntry : b = entry
    · subst isEntry
      rw [atEntry, List.mem_singleton.mp (chains _ .atEntry)]
      exact List.mem_singleton_self b
    · rw [inScope b member isEntry]
      exact inScope'

/-- **A visit keeps the invariant**: the block's set is replaced by its new value. -/
theorem visit_invariant (shape : Scoped count entry scope preds) {sets : Array (List Nat)}
    (inv : Invariant count entry scope preds sets) {b : Nat} (member : b ∈ scope)
    (other : b ≠ entry) :
    Invariant count entry scope preds
      (sets.setIfInBounds b (update sets b (preds.getD b []))) := by
  have below : b < sets.size := inv.size ▸ shape.lt_count b member
  -- the new set lies inside the old one, so every set only shrinks
  have shrink : ∀ q, ∀ x ∈ (sets.setIfInBounds b (update sets b (preds.getD b []))).getD q [],
      x ∈ sets.getD q [] := by
    intro q x inSet
    by_cases same : q = b
    · subst same
      rw [getD_setIfInBounds_self below] at inSet
      exact inv.above q member other x inSet
    · rwa [getD_setIfInBounds_of_ne same] at inSet
  refine ⟨by simp [inv.size], fun c => ?_, ?_, fun c lt outside => ?_, fun c inScope x inSet => ?_,
    fun c inScope otherC x inUpdate => ?_, fun c inScope d dScope chains => ?_⟩
  · by_cases same : c = b
    · rw [same, getD_setIfInBounds_self below]
      exact pairwise_update inv.sorted
    · rw [getD_setIfInBounds_of_ne same]
      exact inv.sorted c
  · rw [getD_setIfInBounds_of_ne (Ne.symm other)]
    exact inv.atEntry
  · have notB : c ≠ b := fun same => outside (same ▸ member)
    rw [getD_setIfInBounds_of_ne notB]
    exact inv.outside c lt outside
  · by_cases same : c = b
    · rw [same, getD_setIfInBounds_self below] at inSet
      exact shape.update_within inv.within member x inSet
    · rw [getD_setIfInBounds_of_ne same] at inSet
      exact inv.within c inScope x inSet
  · have smaller := update_mono shrink inUpdate
    by_cases same : c = b
    · rw [same, getD_setIfInBounds_self below]
      exact same ▸ smaller
    · rw [getD_setIfInBounds_of_ne same]
      exact inv.above c inScope otherC x smaller
  · by_cases same : c = b
    · rw [same, getD_setIfInBounds_self below]
      exact shape.mem_update_of_chains inv.below member dScope (same ▸ chains)
    · rw [getD_setIfInBounds_of_ne same]
      exact inv.below c inScope d dScope chains

/-- A visit that changes a set shortens it. -/
theorem total_visit_lt (shape : Scoped count entry scope preds) {sets : Array (List Nat)}
    (inv : Invariant count entry scope preds sets) {b : Nat} (member : b ∈ scope)
    (other : b ≠ entry) (changed : update sets b (preds.getD b []) ≠ sets.getD b []) :
    total (sets.setIfInBounds b (update sets b (preds.getD b []))) < total sets := by
  have below : b < sets.size := inv.size ▸ shape.lt_count b member
  have shorter := length_lt_of_subset (pairwise_update inv.sorted) (inv.sorted b)
    (inv.above b member other) changed
  have sizes := @total_setIfInBounds sets b (update sets b (preds.getD b [])) below
  omega

end Problem

/-! ### Passes -/

/-- From sets `before` with flag `raised` to sets `after` with flag `raised'`: the total size
does not grow, a raised flag stays raised, it is newly raised only when the total size shrank,
and the sets change only when it is raised. -/
structure Progress (before : Array (List Nat)) (raised : Bool) (after : Array (List Nat))
    (raised' : Bool) : Prop where
  total_le : total after ≤ total before
  keeps : raised = true → raised' = true
  shrank : raised' = true → raised = true ∨ total after < total before
  quiet : raised' = false → after = before

theorem Progress.refl (sets : Array (List Nat)) (raised : Bool) :
    Progress sets raised sets raised :=
  ⟨Nat.le_refl _, id, fun up => .inl up, fun _ => rfl⟩

theorem Progress.trans {first second third : Array (List Nat)} {a b c : Bool}
    (one : Progress first a second b) (two : Progress second b third c) :
    Progress first a third c := by
  refine ⟨Nat.le_trans two.total_le one.total_le, fun up => two.keeps (one.keeps up),
    fun up => ?_, fun down => ?_⟩
  · rcases two.shrank up with middle | smaller
    · rcases one.shrank middle with early | smaller'
      · exact .inl early
      · exact .inr (Nat.lt_of_le_of_lt two.total_le smaller')
    · exact .inr (Nat.lt_of_lt_of_le smaller one.total_le)
  · have middle : b = false := by
      cases b
      · rfl
      · exact absurd (two.keeps rfl) (by simp [down])
    rw [two.quiet down, one.quiet middle]

section Problem

variable {count entry : Nat} {scope : List Nat} {preds : Array (List Nat)}

/-- **One visit**: it keeps the invariant and makes progress, and when it raises no flag the
block's set already equals its new value. -/
theorem visit_spec (shape : Scoped count entry scope preds) {state : Array (List Nat) × Bool}
    (inv : Invariant count entry scope preds state.1) {b : Nat} (member : b ∈ scope) :
    Invariant count entry scope preds (visit preds entry state b).1 ∧
      Progress state.1 state.2 (visit preds entry state b).1 (visit preds entry state b).2 ∧
      ((visit preds entry state b).2 = false → b ≠ entry →
        update state.1 b (preds.getD b []) = state.1.getD b []) := by
  obtain ⟨sets, raised⟩ := state
  by_cases isEntry : b = entry
  · simp only [visit, if_pos isEntry]
    exact ⟨inv, Progress.refl sets raised, fun _ other => absurd isEntry other⟩
  · by_cases same : update sets b (preds.getD b []) = sets.getD b []
    · simp only [visit, if_neg isEntry, if_pos same]
      exact ⟨inv, Progress.refl sets raised, fun _ _ => same⟩
    · simp only [visit, if_neg isEntry, if_neg same]
      have smaller := total_visit_lt shape inv member isEntry same
      exact ⟨visit_invariant shape inv member isEntry,
        ⟨Nat.le_of_lt smaller, fun _ => rfl, fun _ => .inr smaller, fun down => by cases down⟩,
        fun down => by cases down⟩

/-- **A run of visits** keeps the invariant and makes progress; when it ends with the flag down,
every visited block's set already equals its new value. -/
theorem fold_visit (shape : Scoped count entry scope preds) (active : List Nat)
    (sub : ∀ b ∈ active, b ∈ scope) (state : Array (List Nat) × Bool)
    (inv : Invariant count entry scope preds state.1) :
    Invariant count entry scope preds (active.foldl (visit preds entry) state).1 ∧
      Progress state.1 state.2 (active.foldl (visit preds entry) state).1
        (active.foldl (visit preds entry) state).2 ∧
      ((active.foldl (visit preds entry) state).2 = false →
        ∀ b ∈ active, b ≠ entry → update state.1 b (preds.getD b []) = state.1.getD b []) := by
  induction active generalizing state with
  | nil => exact ⟨inv, Progress.refl _ _, fun _ b member => absurd member List.not_mem_nil⟩
  | cons b rest ih =>
    rw [List.foldl_cons]
    obtain ⟨invB, progressB, solvedB⟩ := visit_spec shape inv (sub b List.mem_cons_self)
    obtain ⟨invRest, progressRest, solvedRest⟩ :=
      ih (fun c member => sub c (List.mem_cons_of_mem b member)) _ invB
    refine ⟨invRest, progressB.trans progressRest, fun down c member other => ?_⟩
    -- a flag down at the end was down after the first visit, which then changed nothing
    have downB : (visit preds entry state b).2 = false := by
      cases flag : (visit preds entry state b).2
      · rfl
      · exact absurd (progressRest.keeps flag) (by simp [down])
    have unchanged := progressB.quiet downB
    rcases List.mem_cons.mp member with rfl | later
    · exact solvedB downB other
    · rw [← unchanged]
      exact solvedRest down c later other

/-- **The passes end, in sets that solve the equations**, when the total size of the sets is
below the number of passes still allowed. -/
theorem iterate_ok (shape : Scoped count entry scope preds) (fuel : Nat) :
    ∀ (passes : Nat) (sets : Array (List Nat)) (history : List (List Nat)),
      Invariant count entry scope preds sets → total sets < fuel →
      ∃ run, iterate (sweep preds entry scope) count fuel passes sets history = .ok run ∧
        Invariant count entry scope preds run.sets ∧ Solved entry scope preds run.sets := by
  induction fuel with
  | zero => exact fun _ _ _ _ below => absurd below (Nat.not_lt_zero _)
  | succ fuel ih =>
    intro passes sets history inv below
    have pass : Invariant count entry scope preds (sweep preds entry scope sets).1 ∧
        Progress sets false (sweep preds entry scope sets).1 (sweep preds entry scope sets).2 ∧
        ((sweep preds entry scope sets).2 = false →
          ∀ b ∈ scope, b ≠ entry → update sets b (preds.getD b []) = sets.getD b []) :=
      fold_visit shape scope (fun _ member => member) (sets, false) inv
    rw [iterate]
    generalize sweep preds entry scope sets = result at pass ⊢
    obtain ⟨next, changed⟩ := result
    obtain ⟨invPass, progress, solvedPass⟩ := pass
    cases changed with
    | false =>
      -- a quiet pass: the sets are solved and the run ends
      have unchanged : next = sets := progress.quiet rfl
      refine ⟨_, rfl, invPass, fun b member other => ?_⟩
      rw [unchanged]
      exact solvedPass rfl b member other
    | true =>
      -- a pass that changed a set shrank the total size
      have smaller : total next < total sets := (progress.shrank rfl).resolve_left (by simp)
      exact ih _ _ _ invPass (by omega)

/-! ### The solution -/

/-- The sets have total size at most `count * count`. -/
theorem total_le (inv : Invariant count entry scope preds sets) (shape : Scoped count entry scope preds) :
    total sets ≤ count * count := by
  have lengthLe : ∀ b < count, (sets.getD b []).length ≤ count := by
    intro b lt
    have bounded : sets.getD b [] ⊆ List.range count := by
      intro x inSet
      rw [List.mem_range]
      by_cases inScope : b ∈ scope
      · exact shape.lt_count x (inv.within b inScope x inSet)
      · rw [inv.outside b lt inScope, List.mem_singleton] at inSet
        exact inSet ▸ lt
    simpa using (List.subperm_of_subset ((inv.sorted b).imp Nat.ne_of_lt) bounded).length_le
  have each : ∀ x ∈ sizes sets, x ≤ count := by
    simp only [sizes, List.mem_map, Array.mem_toList_iff]
    rintro x ⟨set, member, rfl⟩
    obtain ⟨b, lt, rfl⟩ := Array.mem_iff_getElem.mp member
    have : sets.getD b [] = sets[b] := by simp [lt]
    rw [← this]
    exact lengthLe b (inv.size ▸ lt)
  have bound := List.sum_le_card_nsmul (sizes sets) count each
  simpa [total, sizes, inv.size] using bound

theorem covers_chain (shape : Scoped count entry scope preds) {sets : Array (List Nat)}
    (inv : Invariant count entry scope preds sets) (solved : Solved entry scope preds sets)
    {b : Nat} {chain : List Nat} (rooted : Rooted entry scope preds b chain) :
    b ∈ scope → ∀ x ∈ sets.getD b [], x ∈ chain := by
  induction rooted with
  | atEntry =>
    intro _ x inSet
    rwa [inv.atEntry] at inSet
  | @orphan r member empty =>
    intro _ x inSet
    by_cases isEntry : r = entry
    · rw [isEntry, inv.atEntry] at inSet
      rwa [isEntry]
    · rw [← solved r member isEntry, empty] at inSet
      exact inSet
  | @step p b chain _ pred ih =>
    intro member x inSet
    by_cases isEntry : b = entry
    · rw [isEntry, inv.atEntry, List.mem_singleton] at inSet
      exact List.mem_append_right _ (List.mem_singleton.mpr (inSet.trans isEntry.symm))
    · rw [← solved b member isEntry] at inSet
      rcases mem_update.mp inSet with rfl | ⟨_, all⟩
      · exact List.mem_append_right _ (List.mem_singleton_self x)
      · exact List.mem_append_left _ (ih (shape.preds_mem b p pred) x (all p pred))

/-- **In solved sets, the set of a block of the scope holds exactly the blocks of the scope that
lie on every rooted chain to it.** -/
theorem mem_of_solved_iff (shape : Scoped count entry scope preds) {sets : Array (List Nat)}
    (inv : Invariant count entry scope preds sets) (solved : Solved entry scope preds sets)
    {b d : Nat} (member : b ∈ scope) :
    d ∈ sets.getD b [] ↔ d ∈ scope ∧ OnEveryChain entry scope preds d b :=
  ⟨fun inSet => ⟨inv.within b member d inSet,
      fun _ rooted => covers_chain shape inv solved rooted member d inSet⟩,
    fun ⟨inScope, chains⟩ => inv.below b member d inScope chains⟩

/-- **The passes from the initial sets, with the default cap, end in sets that solve the
equations.** -/
theorem passes_solve (shape : Scoped count entry scope preds) :
    ∃ run, iterate (sweep preds entry scope) count (count * count + 2) 0
        (initial count entry scope) [sizes (initial count entry scope)] = .ok run ∧
      Invariant count entry scope preds run.sets ∧ Solved entry scope preds run.sets := by
  have inv := initial_invariant shape
  exact iterate_ok shape _ 0 _ _ inv (Nat.lt_of_le_of_lt (total_le inv shape) (by omega))

end Problem

end Dominance

end Flowgraph
