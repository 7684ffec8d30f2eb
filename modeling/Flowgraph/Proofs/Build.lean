import Flowgraph.Graph.Build
import Flowgraph.Proofs.Paths

/-!
**What building a graph gives.**

A build checks that the stream has an executable instruction and that the entry instruction is
one of them, then assembles the graph from the cut points of the stream.

* `build_eq_ok_iff`: a build succeeds exactly when both checks pass, and gives the assembled
  graph;
* `nextExecutable_eq_some_iff`: the next executable position is the first position at or after
  the given one that holds no filler;
* `length_cutBlocks`, `index_of_mem_cutBlocks`: a stream is cut into one block per cut point,
  numbered in order;
* `mem_blockEdges`: the edges out of a block are decided by its terminal instruction;
* `wellFormed_of_build`: the entry block and both ends of every edge of a built graph are among
  its blocks.
-/

namespace Flowgraph

namespace Graph

theorem build_eq_ok_iff {stream : List Instruction} {entry : EntryPoint stream.length}
    {g : Graph} :
    build stream entry = .ok g ↔ ∃ first entryPos, nextExecutable stream 0 = some first ∧
      entryPosition stream entry = .ok entryPos ∧ assemble stream first entryPos = g := by
  unfold build
  cases found : nextExecutable stream 0 with
  | none => simp
  | some first =>
    cases entered : entryPosition stream entry with
    | error fault => simp [bind, Except.bind]
    | ok entryPos => simp [bind, Except.bind, pure, Except.pure]

/-! ### Positions of the stream -/

/-- **The next executable position** is the first position at or after `pos` that holds no
filler. -/
theorem nextExecutable_eq_some_iff {stream : List Instruction} {pos q : Nat} :
    nextExecutable stream pos = some q ↔
      pos ≤ q ∧ ∃ h : q < stream.length, stream[q].isFiller = false ∧
        ∀ i (hi : i < stream.length), pos ≤ i → i < q → stream[i].isFiller = true := by
  simp only [nextExecutable, Option.map_eq_some_iff, List.find?_eq_some_iff_getElem]
  constructor
  · rintro ⟨⟨insn, k⟩, ⟨keep, i, hi, found, before⟩, rfl⟩
    simp only [List.length_drop, List.length_zipIdx, List.getElem_drop, List.getElem_zipIdx,
      Prod.mk.injEq, Bool.not_eq_eq_eq_not, Bool.not_true, Nat.zero_add] at hi found keep before
    obtain ⟨rfl, rfl⟩ := found
    refine ⟨Nat.le_add_right pos i, by omega, keep, fun j hj low high => ?_⟩
    have earlier := before (j - pos) (by omega)
    simpa [show pos + (j - pos) = j by omega] using earlier
  · rintro ⟨low, below, keep, before⟩
    refine ⟨(stream[q], q), ⟨by simpa using keep, q - pos, by simp; omega, ?_, fun j hj => ?_⟩, rfl⟩
    · simp [show pos + (q - pos) = q by omega]
    · simp only [List.getElem_drop, List.getElem_zipIdx, Nat.zero_add, Bool.not_eq_eq_eq_not,
        Bool.not_true]
      exact before (pos + j) (by omega) (by omega) (by omega)

theorem lt_length_of_nextExecutable {stream : List Instruction} {pos q : Nat}
    (found : nextExecutable stream pos = some q) : q < stream.length :=
  (nextExecutable_eq_some_iff.mp found).2.1

theorem mem_leaders_iff {stream : List Instruction} {first : Nat} {entry : Option Nat}
    {pos : Nat} :
    pos ∈ leaders stream first entry ↔ pos < stream.length ∧
      (pos = first ∨ entry = some pos ∨ pos ∈ jumpLeaders stream (firstMarkers stream)) := by
  simp only [leaders, List.mem_filter, List.mem_range, List.contains_iff_mem, List.mem_cons,
    List.mem_append, Option.mem_toList, or_assoc]

theorem pairwise_leaders (stream : List Instruction) (first : Nat) (entry : Option Nat) :
    (leaders stream first entry).Pairwise (· < ·) :=
  List.pairwise_lt_range.filter _

theorem cutPoints_ne_nil {stream : List Instruction} {first : Nat} (entry : Option Nat)
    (below : first < stream.length) : cutPoints stream first entry ≠ [] := by
  have leads : first ∈ leaders stream first entry := mem_leaders_iff.mpr ⟨below, .inl rfl⟩
  unfold cutPoints
  split
  · exact List.cons_ne_nil 0 _
  · rename_i empty
    rw [empty] at leads
    exact absurd leads List.not_mem_nil

/-! ### Blocks -/

theorem length_cutBlocks (stream : List Instruction) (starts : List Nat) :
    (cutBlocks stream starts).length = starts.length := by
  cases starts with
  | nil => simp [cutBlocks]
  | cons start rest => simp [cutBlocks]

theorem index_of_mem_cutBlocks {stream : List Instruction} {starts : List Nat} {b : Block}
    (member : b ∈ cutBlocks stream starts) : b.index < starts.length := by
  simp only [cutBlocks, List.mem_map] at member
  obtain ⟨⟨⟨first, stop⟩, index⟩, inZip, rfl⟩ := member
  have bound := (List.mem_zipIdx' inZip).1
  simp only [List.length_zip] at bound
  exact Nat.lt_of_lt_of_le bound (Nat.min_le_left _ _)

theorem blockAt_lt {starts : List Nat} (nonempty : starts ≠ []) (pos : Nat) :
    blockAt starts pos < starts.length := by
  have shorter : (starts.filter (· ≤ pos)).length ≤ starts.length := List.length_filter_le _ _
  have positive : 0 < starts.length := List.length_pos_iff.mpr nonempty
  unfold blockAt
  omega

/-! ### Edges -/

/-- **The edges out of a block** leave from it, and are decided by its terminal: a jump whose
label has a marker goes to the label's block, and a conditional jump or an instruction that is
no jump and no return falls through to the next block, if there is one. -/
theorem mem_blockEdges {labels : List (Label × Nat)} {count : Nat} {b : Block} {e : Edge} :
    e ∈ blockEdges labels count b ↔ ∃ t, b.terminal = some t ∧ e.source = b.index ∧
      ((t.role.isJump = true ∧ ∃ target, t.jumpTarget.bind (List.lookup · labels) = some target ∧
          e.target = target ∧ e.kind = (if t.role = .condJump then .branchTaken else .jump)) ∨
        ((t.role = .condJump ∨ t.role.isJump = false ∧ t.role ≠ .ret) ∧ b.index + 1 < count ∧
          e.target = b.index + 1 ∧ e.kind = .fallThrough)) := by
  obtain ⟨source, target, kind⟩ := e
  unfold blockEdges
  rcases terminal : b.terminal with _ | t
  · simp
  · -- one case per role of the terminal and per outcome of the label's look-up
    cases role : t.role <;> cases found : t.jumpTarget.bind (List.lookup · labels) <;>
      simp [role, found, Role.isJump] <;> grind

theorem mem_of_lookup_eq_some {labels : List (Label × Nat)} {label : Label} {target : Nat}
    (found : labels.lookup label = some target) : (label, target) ∈ labels := by
  obtain ⟨before, after, rfl, _⟩ := List.lookup_eq_some_iff.mp found
  exact List.mem_append_right _ List.mem_cons_self

/-! ### The assembled graph -/

section Assemble

variable {stream : List Instruction} {first : Nat} {entry : Option Nat}

@[simp] theorem assemble_stream : (assemble stream first entry).stream = stream := rfl

@[simp] theorem assemble_blocks :
    (assemble stream first entry).blocks = cutBlocks stream (cutPoints stream first entry) := rfl

theorem assemble_labels :
    (assemble stream first entry).labels = (firstMarkers stream).map
      fun (name, pos) => (name, blockAt (cutPoints stream first entry) pos) := rfl

theorem assemble_edges :
    (assemble stream first entry).edges = (assemble stream first entry).blocks.flatMap
      (blockEdges (assemble stream first entry).labels (assemble stream first entry).blocks.length) :=
  rfl

theorem assemble_entry :
    (assemble stream first entry).entry = match entry with
      | some pos => blockAt (cutPoints stream first entry) pos
      | none => 0 := rfl

theorem size_assemble :
    (assemble stream first entry).size = (cutPoints stream first entry).length :=
  length_cutBlocks _ _

/-- **An assembled graph is well formed** when its first executable position lies in the
stream. -/
theorem wellFormed_assemble (below : first < stream.length) :
    (assemble stream first entry).WellFormed := by
  have nonempty := cutPoints_ne_nil entry below
  have labelled : ∀ name target, (name, target) ∈ (assemble stream first entry).labels →
      target < (assemble stream first entry).size := by
    intro name target member
    rw [assemble_labels, List.mem_map] at member
    obtain ⟨⟨_, pos⟩, _, same⟩ := member
    rw [size_assemble, ← (Prod.mk.inj same).2]
    exact blockAt_lt nonempty pos
  have ends : ∀ e ∈ (assemble stream first entry).edges,
      e.source < (assemble stream first entry).size ∧ e.target < (assemble stream first entry).size := by
    intro e member
    rw [assemble_edges, List.mem_flatMap] at member
    obtain ⟨b, inBlocks, inEdges⟩ := member
    have indexBelow : b.index < (assemble stream first entry).size := by
      rw [size_assemble]
      exact index_of_mem_cutBlocks inBlocks
    obtain ⟨t, _, source, taken | falls⟩ := mem_blockEdges.mp inEdges
    · obtain ⟨_, target, found, rfl, _⟩ := taken
      obtain ⟨name, _, lookedUp⟩ := Option.bind_eq_some_iff.mp found
      exact ⟨source ▸ indexBelow, labelled name _ (mem_of_lookup_eq_some lookedUp)⟩
    · exact ⟨source ▸ indexBelow, falls.2.2.1 ▸ falls.2.1⟩
  refine ⟨?_, fun e member => (ends e member).1, fun e member => (ends e member).2⟩
  rw [assemble_entry, size_assemble]
  split
  · exact blockAt_lt nonempty _
  · exact List.length_pos_iff.mpr nonempty

end Assemble

/-- **A built graph is well formed.** -/
theorem wellFormed_of_build {stream : List Instruction} {entry : EntryPoint stream.length}
    {g : Graph} (built : build stream entry = .ok g) : g.WellFormed := by
  obtain ⟨first, entryPos, found, _, rfl⟩ := build_eq_ok_iff.mp built
  exact wellFormed_assemble (lt_length_of_nextExecutable found)

end Graph

end Flowgraph
