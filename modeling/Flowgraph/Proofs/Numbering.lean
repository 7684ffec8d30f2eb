import Flowgraph.Proofs.Dominance.Paths

/-!
**Numbering gives the reachable blocks the dense ids of the pre-order.**

Numbering a graph records its pre-order once; the id of a block is its place in that order, and a
graph numbered already keeps its numbering.

* `idxOf?_eq_some_iff_of_nodup`: in a list without repeats, the place of an element is the one
  index that holds it;
* `length_preorder`: the pre-order and the worklist closure `reachableFrom` hold the same blocks,
  each once, so they are equally long;
* `number_assigns_dense_ids`: numbering a well formed graph gives exactly the blocks that
  `reachableFrom` finds from the entry block an id, one to one onto `0, …, R - 1` for `R` of them,
  the entry block `0` and every block its place in the pre-order. The list of pairs of index and
  id agrees with the ids of the blocks, and numbering again changes nothing.
-/

namespace Flowgraph

namespace Graph

theorem idxOf?_eq_some_iff_of_nodup {l : List Nat} (distinct : l.Nodup) {a k : Nat} :
    l.idxOf? a = some k ↔ ∃ below : k < l.length, l[k] = a := by
  rw [List.idxOf?_eq_some_iff]
  refine ⟨fun ⟨below, found, _⟩ => ⟨below, found⟩, fun ⟨below, found⟩ => ⟨below, found, ?_⟩⟩
  intro j earlier same
  have := (distinct.getElem_inj_iff (i := j) (j := k)).mp (same.trans found.symm)
  omega

/-- The pairs of element and place, from place `start` on, look an element up at its place. -/
theorem lookup_zipIdx (l : List Nat) (start a : Nat) :
    (l.zipIdx start).lookup a = (l.idxOf? a).map (· + start) := by
  induction l generalizing start with
  | nil => rfl
  | cons x rest ih =>
    rw [List.zipIdx_cons, List.lookup_cons, List.idxOf?_cons, ih]
    by_cases same : x = a
    · simp [same]
    · have differ : (a == x) = false := by simpa using Ne.symm same
      have differ' : (x == a) = false := by simpa using same
      rw [differ, differ']
      simp only [Bool.false_eq_true, if_false, Option.map_map]
      congr 1
      funext k
      simp only [Function.comp_apply]
      omega

variable {g : Graph}

/-- The pre-order holds the blocks `reachableFrom` finds, as many of them. -/
theorem length_preorder (wf : g.WellFormed) :
    g.preorder.length = (g.reachableFrom g.entry).length := by
  refine ((List.perm_ext_iff_of_nodup (nodup_preorder g) ?_).mpr fun b => ?_).length_eq
  · exact (pairwise_reachableFrom g g.entry).imp Nat.ne_of_lt
  · rw [mem_preorder_iff wf, mem_reachableFrom_iff wf wf.entry_lt]

/-- A built graph is not numbered yet. -/
theorem numbering_of_build {stream : List Instruction} {entry : EntryPoint stream.length}
    (built : build stream entry = .ok g) : g.numbering = none := by
  obtain ⟨first, entryPos, found, _, rfl⟩ := build_eq_ok_iff.mp built
  rfl

theorem number_of_numbering_eq_none (unnumbered : g.numbering = none) :
    g.number = { g with numbering := some g.preorder } := by
  rw [number, unnumbered]

theorem blockId_number (unnumbered : g.numbering = none) (i : Nat) :
    g.number.blockId i = g.preorder.idxOf? i := by
  rw [number_of_numbering_eq_none unnumbered]
  rfl

theorem number_of_numbering_eq_some {order : List Nat} (numbered : g.numbering = some order) :
    g.number = g := by
  rw [number, numbered]

/-- Numbering changes no edge, block or entry, so no walk. -/
theorem preorder_number (g : Graph) : g.number.preorder = g.preorder := by
  cases numbered : g.numbering with
  | none =>
    rw [number_of_numbering_eq_none numbered]
    rfl
  | some order => rw [number_of_numbering_eq_some numbered]

/-- A numbered graph keeps its numbering. -/
theorem number_number (g : Graph) : g.number.number = g.number := by
  cases numbered : g.numbering with
  | none =>
    have renumbered : g.number.numbering = some g.preorder := by
      rw [number_of_numbering_eq_none numbered]
    exact number_of_numbering_eq_some renumbered
  | some order => rw [number_of_numbering_eq_some numbered, number_of_numbering_eq_some numbered]

/-- **Numbering gives the reachable blocks the dense ids of the pre-order.** For a well formed
graph not numbered yet, the blocks with an id are exactly those `reachableFrom` finds from the
entry block, and the ids are one to one onto `0, …, R - 1` for `R` such blocks. The entry block
gets `0` and each block its place in the pre-order; the pairs of index and id, by id, give each
block its id; numbering again changes nothing, and numbering touches no block, edge or entry. -/
theorem number_assigns_dense_ids (wf : g.WellFormed) (unnumbered : g.numbering = none) :
    (∀ i, (g.number.blockId i).isSome ↔ i ∈ g.reachableFrom g.entry) ∧
    (∀ i k, g.number.blockId i = some k → k < (g.reachableFrom g.entry).length) ∧
    (∀ k < (g.reachableFrom g.entry).length, ∃ i, g.number.blockId i = some k) ∧
    (∀ i j k, g.number.blockId i = some k → g.number.blockId j = some k → i = j) ∧
    g.number.blockId g.entry = some 0 ∧
    (∀ i, g.number.blockId i = g.preorder.idxOf? i) ∧
    (∀ i, g.number.ids.lookup i = g.number.blockId i) ∧
    g.number.number = g.number ∧
    g.number.blocks = g.blocks ∧ g.number.edges = g.edges ∧ g.number.entry = g.entry := by
  have ids := blockId_number unnumbered
  have distinct := nodup_preorder g
  have sameLength := length_preorder wf
  refine ⟨fun i => ?_, fun i k found => ?_, fun k below => ?_, fun i j k first second => ?_, ?_,
    ids, fun i => ?_, number_number g, ?_, ?_, ?_⟩
  · rw [ids, List.isSome_idxOf?, mem_preorder_iff wf, mem_reachableFrom_iff wf wf.entry_lt]
  · rw [ids, idxOf?_eq_some_iff_of_nodup distinct] at found
    exact sameLength ▸ found.1
  · have inRange : k < g.preorder.length := sameLength ▸ below
    exact ⟨g.preorder[k], by rw [ids, idxOf?_eq_some_iff_of_nodup distinct]; exact ⟨inRange, rfl⟩⟩
  · rw [ids, idxOf?_eq_some_iff_of_nodup distinct] at first second
    obtain ⟨_, atI⟩ := first
    obtain ⟨_, atJ⟩ := second
    exact atI.symm.trans atJ
  · obtain ⟨rest, startsAt⟩ := preorder_eq_cons wf
    rw [ids, startsAt, List.idxOf?_cons]
    simp
  · rw [ids, Graph.ids, lookup_zipIdx, preorder_number]
    simp only [Nat.add_zero, Option.map_id']
  all_goals rw [number_of_numbering_eq_none unnumbered]

theorem number_assigns_dense_ids_of_loopWithDeadCycle :
    ∃ g, build loopWithDeadCycle .first = .ok g ∧ g.WellFormed ∧ g.numbering = none ∧
      (∀ i, (g.number.blockId i).isSome ↔ i ∈ g.reachableFrom g.entry) ∧
      (∀ i k, g.number.blockId i = some k → k < (g.reachableFrom g.entry).length) ∧
      (∀ k < (g.reachableFrom g.entry).length, ∃ i, g.number.blockId i = some k) ∧
      (∀ i j k, g.number.blockId i = some k → g.number.blockId j = some k → i = j) ∧
      g.number.blockId g.entry = some 0 ∧
      (∀ i, g.number.blockId i = g.preorder.idxOf? i) ∧
      (∀ i, g.number.ids.lookup i = g.number.blockId i) ∧
      g.number.number = g.number ∧
      g.number.blocks = g.blocks ∧ g.number.edges = g.edges ∧ g.number.entry = g.entry := by
  obtain ⟨g, built⟩ : ∃ g, build loopWithDeadCycle .first = .ok g := ⟨_, rfl⟩
  have wf := wellFormed_of_build built
  have unnumbered := numbering_of_build built
  exact ⟨g, built, wf, unnumbered, number_assigns_dense_ids wf unnumbered⟩

end Graph

end Flowgraph
