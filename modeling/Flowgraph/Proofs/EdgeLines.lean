import Flowgraph.Proofs.EdgeList
import Flowgraph.Proofs.Numbering
import Flowgraph.Proofs.Edges

/-!
**The edge list and the edges of the JSON report list every successor once.**

The edge list has a line per block reachable from the entry, in pre-order, and the JSON report
has a field per such block in its `edges` object. A successor is written by its id, and a block
without id is skipped; here no successor of a reachable block is skipped, since a successor of a
reachable block is reachable and so has an id.

* `zipIdx_eq_map_idxOf`: pairing the blocks of the pre-order with their places is pairing each
  block with its id;
* `edgeList_eq_map_preorder`, `reportDocument_edges`: the lines and the report's fields are
  the blocks of the pre-order, each by its id and its successor ids;
* `count_map_eq_one_iff`: a list without repeats, mapped one to one, holds the image of a value
  once exactly when it holds the value;
* `edgeList_lists_successor_ids`: for a well-formed graph the edge list has one line per
  reachable block; the line of the block with id `k` is `k =>` followed by the ids of its
  distinct successors, in order of first appearance; the id of a reachable block stands on that
  line once exactly when the block is a successor; the report's `edges` object holds the same
  lists under the keys `k`.
-/

namespace Flowgraph

namespace Graph

/-- In a list without repeats, the place of each element is its index. -/
theorem zipIdx_eq_map_idxOf {l : List Nat} (distinct : l.Nodup) :
    l.zipIdx = l.map fun a => (a, l.idxOf a) := by
  apply List.ext_getElem (by simp)
  intro i inZip inMap
  have below : i < l.length := by simpa using inZip
  simp [List.getElem_zipIdx, distinct.idxOf_getElem i below]

/-- A list without repeats, mapped one to one, holds the image of `b` once exactly when it holds
`b`. -/
theorem count_map_eq_one_iff {f : Nat → Nat} {l : List Nat} (distinct : l.Nodup) {b : Nat}
    (injective : Set.InjOn f {x | x ∈ l ∨ x = b}) : (l.map f).count (f b) = 1 ↔ b ∈ l := by
  constructor
  · intro once
    have present : f b ∈ l.map f := List.count_pos_iff.mp (by omega)
    obtain ⟨x, member, same⟩ := List.mem_map.mp present
    rwa [injective (Or.inl member) (Or.inr rfl) same] at member
  · intro member
    have imageDistinct : (l.map f).Nodup :=
      distinct.map_on fun x memberX y memberY => injective (Or.inl memberX) (Or.inl memberY)
    exact List.count_eq_one_of_mem imageDistinct (List.mem_map_of_mem member)

variable {g : Graph}

/-- The lines of the edge list are the blocks of the pre-order, each by its id and the ids of
its successors. -/
theorem edgeList_eq_map_preorder (g : Graph) :
    g.edgeList = g.preorder.map fun a => toString (g.preorder.idxOf a) ++ " =>" ++
      String.join ((g.successorIds a).map fun s => " " ++ toString s) := by
  rw [edgeList, zipIdx_eq_map_idxOf (nodup_preorder g), List.map_map]
  rfl

/-- The `edges` object of the JSON report: the blocks of the pre-order, each by its id and the
ids of its successors; around it stand the block counts and the dominator sets. -/
theorem reportDocument_edges (g : Graph) (sets : List (Nat × List Nat)) :
    ∃ blocks reachable doms, g.reportDocument sets = .obj [("blocks", blocks),
      ("reachable", reachable),
      ("edges", .obj (g.preorder.map fun a => (toString (g.preorder.idxOf a),
        .arr ((g.successorIds a).map fun s => .int (Int.ofNat s))))),
      ("dominators", doms)] := by
  rw [reportDocument, zipIdx_eq_map_idxOf (nodup_preorder g), List.map_map]
  exact ⟨_, _, _, rfl⟩

/-- The id of a reachable block is its place in the pre-order, and it is the line it owns. -/
theorem getElem?_edgeList (wf : g.WellFormed) {a : Nat} (reach : g.Reaches g.entry a) :
    g.edgeList[g.preorder.idxOf a]? = some (toString (g.preorder.idxOf a) ++ " =>" ++
      String.join ((g.successorIds a).map fun s => " " ++ toString s)) := by
  have listed : a ∈ g.preorder := (mem_preorder_iff wf).mpr reach
  rw [edgeList_eq_map_preorder, List.getElem?_map,
    List.getElem?_eq_getElem (List.idxOf_lt_length_of_mem listed), List.getElem_idxOf]
  rfl

/-- The successors of a reachable block and the block itself are all in the pre-order, where a
block is known by its id. -/
theorem injOn_idxOf_successors (wf : g.WellFormed) {a b : Nat} (reachA : g.Reaches g.entry a)
    (reachB : g.Reaches g.entry b) :
    Set.InjOn g.preorder.idxOf {x | x ∈ dedup (g.successors a) ∨ x = b} := by
  have listed : ∀ x ∈ {x | x ∈ dedup (g.successors a) ∨ x = b}, x ∈ g.preorder := by
    rintro x (successor | rfl)
    · exact (mem_preorder_iff wf).mpr (reachA.tail (mem_dedup.mp successor))
    · exact (mem_preorder_iff wf).mpr reachB
  intro x memberX y _ same
  exact (List.idxOf_inj (listed x memberX)).mp same

/-- **The edge list and the JSON report list each successor of a reachable block once.** For a
well-formed graph, the edge list has one line per block reachable from the entry. The line of
the block with id `k` is `k =>` followed by the ids of its distinct successors, in order of first
appearance, each after a blank. No successor goes missing for lack of an id, so the id of a
reachable block stands on the line of a reachable block once exactly when it is one of its
successors. The `edges` object of the JSON report holds the same lists, under the keys `k`. -/
theorem edgeList_lists_successor_ids (wf : g.WellFormed) :
    g.edgeList.length = (g.reachableFrom g.entry).length ∧
    (∀ a, g.Reaches g.entry a →
      g.edgeList[g.preorder.idxOf a]? = some (toString (g.preorder.idxOf a) ++ " =>" ++
        String.join ((g.successorIds a).map fun s => " " ++ toString s)) ∧
      g.successorIds a = (dedup (g.successors a)).map g.preorder.idxOf) ∧
    (∀ a b, g.Reaches g.entry a → g.Reaches g.entry b →
      ((g.successorIds a).count (g.preorder.idxOf b) = 1 ↔ b ∈ g.successors a)) ∧
    (∀ sets, ∃ blocks reachable doms, g.reportDocument sets = .obj [("blocks", blocks),
      ("reachable", reachable),
      ("edges", .obj (g.preorder.map fun a => (toString (g.preorder.idxOf a),
        .arr ((g.successorIds a).map fun s => .int (Int.ofNat s))))),
      ("dominators", doms)]) := by
  refine ⟨?_, fun a reach => ⟨getElem?_edgeList wf reach, successorIdsIn_idTable wf reach⟩,
    fun a b reachA reachB => ?_, reportDocument_edges g⟩
  · rw [edgeList_eq_map_preorder, List.length_map, length_preorder wf]
  · rw [successorIds, successorIdsIn_idTable wf reachA,
      count_map_eq_one_iff (nodup_dedup _) (injOn_idxOf_successors wf reachA reachB), mem_dedup]

/-- A block with two edges to the next block, which has an edge to itself. -/
theorem edgeList_lists_successor_ids_of_branchIntoNext :
    ∃ g, build branchIntoNext .first = .ok g ∧ g.WellFormed ∧
      g.edgeList.length = (g.reachableFrom g.entry).length ∧
      (∀ a, g.Reaches g.entry a →
        g.edgeList[g.preorder.idxOf a]? = some (toString (g.preorder.idxOf a) ++ " =>" ++
          String.join ((g.successorIds a).map fun s => " " ++ toString s)) ∧
        g.successorIds a = (dedup (g.successors a)).map g.preorder.idxOf) ∧
      (∀ a b, g.Reaches g.entry a → g.Reaches g.entry b →
        ((g.successorIds a).count (g.preorder.idxOf b) = 1 ↔ b ∈ g.successors a)) ∧
      (∀ sets, ∃ blocks reachable doms, g.reportDocument sets = .obj [("blocks", blocks),
        ("reachable", reachable),
        ("edges", .obj (g.preorder.map fun a => (toString (g.preorder.idxOf a),
          .arr ((g.successorIds a).map fun s => .int (Int.ofNat s))))),
        ("dominators", doms)]) := by
  obtain ⟨g, built⟩ : ∃ g, build branchIntoNext .first = .ok g := ⟨_, rfl⟩
  have wf := wellFormed_of_build built
  exact ⟨g, built, wf, edgeList_lists_successor_ids wf⟩

end Graph

end Flowgraph
