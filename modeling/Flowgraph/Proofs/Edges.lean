import Mathlib.Data.List.Sort
import Mathlib.Data.List.Pairwise
import Flowgraph.Proofs.Blocks

/-!
**The edges of a built graph, block by block.**

The terminal of a block decides its edges (`terminalEdges`): a jump whose label has a marker goes
to the block of that marker, as a taken branch when the jump is conditional; a conditional jump
or a plain instruction then falls through to the next block, when there is one. A return, and a
block that executes nothing, give no edge.

* `blockEdges_eq_terminalEdges`: the build gives each block exactly these edges;
* `filter_source_flatMap`: in a list of blocks numbered by their place, the edges that leave
  block `i` are the edges of block `i` alone;
* `pairwise_source_flatMap`: so the edge list runs through the sources in increasing order;
* `edges_of_build`: for every graph a build gives, the edge list is the edges of the blocks in
  index order; the successors of a block are the targets of its own edges, in order and with
  repeats; its predecessors are the blocks with an edge into it, each once and in increasing
  order; a block follows another exactly when the other precedes it; and no block has more than
  two successors.
-/

namespace Flowgraph

namespace Graph

/-- The edges out of block `i` of `count` blocks, given the label map and the block's terminal:
a jump whose label has a marker goes to the block of the marker, as a taken branch when the jump
is conditional; then a conditional jump or a plain instruction falls through to block `i + 1`,
when there is one. -/
def terminalEdges (labels : List (Label × Nat)) (count i : Nat) : Option Instruction → List Edge
  | none => []
  | some t =>
    (if t.role.isJump then
      (t.target.bind (List.lookup · labels)).toList.map fun target =>
        ⟨i, target, if t.role = .condJump then .branchTaken else .jump⟩
    else []) ++
    (if (t.role = .condJump ∨ t.role = .plain) ∧ i + 1 < count then [⟨i, i + 1, .fallThrough⟩]
    else [])

section TerminalEdges

variable {labels : List (Label × Nat)} {count i : Nat}

theorem source_of_mem_terminalEdges {t : Option Instruction} {e : Edge}
    (member : e ∈ terminalEdges labels count i t) : e.source = i := by
  cases t with
  | none => cases member
  | some t =>
    simp only [terminalEdges, List.mem_append] at member
    rcases member with taken | falls
    · split at taken
      · obtain ⟨target, _, rfl⟩ := List.mem_map.mp taken
        rfl
      · cases taken
    · split at falls
      · rw [List.mem_singleton.mp falls]
      · cases falls

/-- A block has at most two edges out: the jump's, and the fall-through. -/
theorem length_terminalEdges_le (t : Option Instruction) :
    (terminalEdges labels count i t).length ≤ 2 := by
  cases t with
  | none => simp [terminalEdges]
  | some t =>
    have taken : (t.target.bind (List.lookup · labels)).toList.length ≤ 1 := by
      cases t.target.bind (List.lookup · labels) <;> simp
    have falls : (if (t.role = .condJump ∨ t.role = .plain) ∧ i + 1 < count then
        [(⟨i, i + 1, .fallThrough⟩ : Edge)] else []).length ≤ 1 := by
      split <;> simp
    simp only [terminalEdges, List.length_append]
    split <;> simp only [List.length_map, List.length_nil] <;> omega

end TerminalEdges

/-- **The build gives each block the edges of its terminal.** The terminal is executed, so it is
a jump, a conditional jump, a return or a plain instruction. -/
theorem blockEdges_eq_terminalEdges (labels : List (Label × Nat)) (count : Nat) (b : Block) :
    blockEdges labels count b = terminalEdges labels count b.index b.terminal := by
  unfold blockEdges
  rcases found : b.terminal with _ | t
  · rfl
  · have executed := (Block.terminal_mem found).2
    cases role : t.role <;>
      simp_all [terminalEdges, Instruction.jumpTarget, Role.isJump, Role.isExecutable] <;>
      cases t.target.bind (List.lookup · labels) <;> rfl

/-! ### Blocks numbered by their place -/

section Numbered

variable {blocks : List Block} (numbered : ∀ j (h : j < blocks.length), blocks[j].index = j)
  {f : Block → List Edge} (sourced : ∀ b, ∀ e ∈ f b, e.source = b.index)
include numbered sourced

/-- **The edges that leave block `i` are those of block `i`**, when each block is numbered by its
place and its edges leave from it. -/
theorem filter_source_flatMap (i : Nat) :
    (blocks.flatMap f).filter (fun e => e.source = i) = (blocks[i]?.map f).getD [] := by
  induction blocks using List.reverseRecOn with
  | nil => simp
  | append_singleton front last ih =>
    have lastIndex : last.index = front.length := by
      simpa using numbered front.length (by simp)
    have frontNumbered : ∀ j (h : j < front.length), front[j].index = j := fun j h => by
      have inFront := numbered j (by simp; omega)
      rwa [List.getElem_append_left h] at inFront
    -- the edges of the last block leave from it, and none of them from any other block
    have lastEdges : (f last).filter (fun e => e.source = i) =
        if front.length = i then f last else [] := by
      split
      · exact List.filter_eq_self.mpr fun e member => by simp [sourced last e member, *]
      · exact List.filter_eq_nil_iff.mpr fun e member => by simp [sourced last e member, *]
    rw [List.flatMap_append, List.filter_append, ih frontNumbered, List.flatMap_singleton,
      lastEdges, List.getElem?_append]
    rcases Nat.lt_trichotomy i front.length with before | rfl | after
    · simp [before, Nat.ne_of_gt before]
    · simp
    · simp [Nat.not_lt_of_gt after, Nat.ne_of_lt after, Nat.sub_ne_zero_of_lt after]

/-- **The edge list runs through the sources in increasing order.** -/
theorem pairwise_source_flatMap : ((blocks.flatMap f).map Edge.source).Pairwise (· ≤ ·) := by
  have increasing : blocks.Pairwise fun a b => a.index < b.index := by
    rw [List.pairwise_iff_getElem]
    intro j k hj hk before
    rw [numbered j hj, numbered k hk]
    exact before
  rw [List.pairwise_map, List.pairwise_flatMap]
  refine ⟨fun b _ => List.pairwise_of_forall_mem_list fun x inX y inY => ?_, ?_⟩
  · rw [sourced b x inX, sourced b y inY]
  · refine increasing.imp fun {a b} before x inX y inY => ?_
    rw [sourced a x inX, sourced b y inY]
    exact Nat.le_of_lt before

end Numbered

/-- Removing repeats from a list in increasing order leaves a strictly increasing list. -/
theorem pairwise_lt_dedup {l : List Nat} (sorted : l.Pairwise (· ≤ ·)) :
    (dedup l).Pairwise (· < ·) :=
  ((sorted.sublist (dedup_sublist l)).and (nodup_dedup l)).imp fun both =>
    Nat.lt_of_le_of_ne both.1 both.2

/-! ### The built graph -/

theorem index_getElem_cutBlocks {stream : List Instruction} {starts : List Nat} (j : Nat)
    (h : j < (cutBlocks stream starts).length) : (cutBlocks stream starts)[j].index = j := by
  rw [getElem_cutBlocks (by simpa [length_cutBlocks] using h) h]

theorem edges_assemble {stream : List Instruction} {first : Nat} {entry : Option Nat} :
    (assemble stream first entry).edges = (assemble stream first entry).blocks.flatMap fun b : Block =>
      terminalEdges (assemble stream first entry).labels (assemble stream first entry).size b.index
        b.terminal := by
  rw [assemble_edges]
  exact List.flatMap_congr fun b _ => blockEdges_eq_terminalEdges _ _ b

/-- The predecessors of a block, when the edge list runs through the sources in increasing order,
are the blocks with an edge into it, each once, in increasing order. -/
theorem predecessors_eq_filter_range {g : Graph} (wf : g.WellFormed)
    (sorted : (g.edges.map Edge.source).Pairwise (· ≤ ·)) (j : Nat) :
    g.predecessors j = (List.range g.size).filter fun i => j ∈ g.successors i := by
  have sources : ((g.edges.filter fun e => e.target = j).map Edge.source).Pairwise (· ≤ ·) :=
    sorted.sublist (List.filter_sublist.map Edge.source)
  have increasing : (g.predecessors j).Pairwise (· < ·) := pairwise_lt_dedup sources
  refine List.Pairwise.eq_of_mem_iff increasing (List.pairwise_lt_range.filter _) fun i => ?_
  rw [mem_predecessors_iff, List.mem_filter, List.mem_range, decide_eq_true_eq]
  exact ⟨fun step => ⟨(wf.step_lt step).1, step⟩, fun ⟨_, step⟩ => step⟩

/-- **The edges of a built graph.** The blocks are listed in index order, and the edge list is
the edges of their terminals, block by block. The successors of a block are the targets of its
own edges, in order and with repeats; its predecessors are the blocks with an edge into it, each
once, in increasing order. So a block follows another exactly when the other precedes it, and
no block has more than two successors. -/
theorem edges_of_build {stream : List Instruction} {entry : EntryPoint stream.length} {g : Graph}
    (built : build stream entry = .ok g) :
    (∀ i (h : i < g.blocks.length), g.blocks[i].index = i) ∧
      g.edges = g.blocks.flatMap (fun b : Block => terminalEdges g.labels g.size b.index b.terminal) ∧
      (∀ i, g.successors i =
        (terminalEdges g.labels g.size i (g.blocks[i]?.bind Block.terminal)).map Edge.target) ∧
      (∀ j, g.predecessors j = (List.range g.size).filter fun i => j ∈ g.successors i) ∧
      (∀ i j, j ∈ g.successors i ↔ i ∈ g.predecessors j) ∧
      (∀ i, (g.successors i).length ≤ 2) := by
  have wf := wellFormed_of_build built
  obtain ⟨first, entryPos, _, _, rfl⟩ := build_eq_ok_iff.mp built
  have numbered : ∀ i (h : i < (assemble stream first entryPos).blocks.length),
      (assemble stream first entryPos).blocks[i].index = i := fun i h => by
    simp only [assemble_blocks] at h ⊢
    exact index_getElem_cutBlocks i h
  have sourced : ∀ b : Block, ∀ e ∈ terminalEdges (assemble stream first entryPos).labels
      (assemble stream first entryPos).size b.index b.terminal, e.source = b.index :=
    fun _ _ member => source_of_mem_terminalEdges member
  have successors : ∀ i, (assemble stream first entryPos).successors i =
      (terminalEdges (assemble stream first entryPos).labels (assemble stream first entryPos).size i
        ((assemble stream first entryPos).blocks[i]?.bind Block.terminal)).map Edge.target := by
    intro i
    rw [successors, edges_assemble, filter_source_flatMap numbered sourced i]
    -- block `i`, when there is one, is numbered `i`
    cases lookup : (assemble stream first entryPos).blocks[i]? with
    | none => rfl
    | some b =>
      obtain ⟨h, rfl⟩ := List.getElem?_eq_some_iff.mp lookup
      rw [Option.map_some, Option.getD_some, Option.bind_some, numbered i h]
  have sorted := pairwise_source_flatMap numbered sourced
  rw [← edges_assemble] at sorted
  refine ⟨numbered, edges_assemble, successors, predecessors_eq_filter_range wf sorted,
    fun i j => mem_predecessors_iff.symm, fun i => ?_⟩
  rw [successors, List.length_map]
  exact length_terminalEdges_le _

/-- A conditional jump to the next block, which then branches to itself: the first block has two
edges to the second, and the second one to itself. -/
def branchIntoNext : List Instruction :=
  [⟨"iload", [.integer 0], none, none⟩, ⟨"ifeq", [.name "NEXT"], none, some ⟨0, "NEXT"⟩⟩,
   Instruction.marker ⟨0, "NEXT"⟩, ⟨"ifne", [.name "NEXT"], none, some ⟨0, "NEXT"⟩⟩,
   ⟨"return", [], none, none⟩]

theorem edges_of_branchIntoNext :
    ∃ g, build branchIntoNext .first = .ok g ∧
      (∀ i (h : i < g.blocks.length), g.blocks[i].index = i) ∧
      g.edges = g.blocks.flatMap (fun b : Block => terminalEdges g.labels g.size b.index b.terminal) ∧
      (∀ i, g.successors i =
        (terminalEdges g.labels g.size i (g.blocks[i]?.bind Block.terminal)).map Edge.target) ∧
      (∀ j, g.predecessors j = (List.range g.size).filter fun i => j ∈ g.successors i) ∧
      (∀ i j, j ∈ g.successors i ↔ i ∈ g.predecessors j) ∧
      (∀ i, (g.successors i).length ≤ 2) := by
  obtain ⟨g, built⟩ : ∃ g, build branchIntoNext .first = .ok g := ⟨_, rfl⟩
  exact ⟨g, built, edges_of_build built⟩

end Graph

end Flowgraph
