import Mathlib.Data.List.Forall2
import Mathlib.Algebra.GroupWithZero.Nat
import Flowgraph.Proofs.Simulation

/-!
**How a build cuts a stream into blocks.**

The blocks of a graph lie one after another along its stream: the offset of a block is the number
of instructions in the blocks before it (`Graph.offset`), and its lead is the position of its
first instruction that is not filler (`Graph.leadOf`). The leaders of a stream, said without the
build (`IsLeader`), are its first instruction that is not filler, the entry, the first marker of
each label that a jump names, and the first instruction that is not filler after each
conditional jump.

* `flatten_take_cutBlocks`: the first `k` blocks, joined, are the stream up to the `k`-th cut
  point, so the offset of each block is its cut point (`offset_assemble`);
* `leadOf_assemble`: the lead of each block is the leader it was cut at, and every block but the
  first starts with it;
* `mem_leaders_iff_isLeader`: the leaders the build collects are the leaders of the stream;
* `mem_firstMarkers_iff`, `pairwise_firstMarkers`: the label map has each label with a marker
  once, at its first marker, in stream order;
* `partition_of_build`: for every stream with an instruction other than filler and every entry
  among those instructions, the build succeeds; its blocks, joined, give back the stream; their
  leads are the leaders of the stream, in order, one per block, and only the first block can
  start with filler; the entry block is the one led by the entry; and the label map sends each
  label with a marker to the block that holds its first marker, in the order of those markers.
-/

namespace Flowgraph

/-- Position `pos` leads a block of `stream`, entered at position `start`: it holds the first
instruction that is not filler, or the entry, or the first marker of a label that a jump names,
or the first instruction that is not filler after a conditional jump. -/
def IsLeader (stream : List Instruction) (start pos : Nat) : Prop :=
  NextNonFiller stream 0 pos ∨ pos = start ∨
    (∃ p, ∃ h : p < stream.length, stream[p].role.isJump = true ∧
      ∃ label, stream[p].target = some label ∧ FirstMarker stream label pos) ∨
    (∃ p, ∃ h : p < stream.length, stream[p].role = .condJump ∧ NextNonFiller stream (p + 1) pos)

namespace Graph

/-! ### Blocks laid end to end -/

/-- The position in the stream of the first instruction of block `i`: the number of instructions
in the blocks before it. -/
def offset (g : Graph) (i : Nat) : Nat :=
  ((g.blocks.take i).map fun b => b.instructions.length).sum

/-- The position in the stream of the first instruction of block `i` that is not filler. -/
def leadOf (g : Graph) (i : Nat) : Option Nat :=
  g.blocks[i]?.bind fun b =>
    (b.instructions.findIdx? fun insn => !insn.isFiller).map (g.offset i + ·)

/-- Block `i` holds the instruction at position `pos` of the stream. -/
def Holds (g : Graph) (i pos : Nat) : Prop :=
  i < g.size ∧ g.offset i ≤ pos ∧ pos < g.offset (i + 1)

theorem leadOf_eq (g : Graph) {i : Nat} (h : i < g.blocks.length) :
    g.leadOf i = (g.blocks[i].instructions.findIdx? fun insn => !insn.isFiller).map (g.offset i + ·) := by
  simp [leadOf, List.getElem?_eq_getElem h]

/-- The first instruction that is not filler in a run of the stream from position `s`. -/
theorem findIdx?_take_drop {stream : List Instruction} {s q n : Nat}
    (next : NextNonFiller stream s q) (within : q < s + n) :
    ((stream.drop s).take n).findIdx? (fun insn => !insn.isFiller) = some (q - s) := by
  obtain ⟨low, below, keep, filler⟩ := next
  rw [List.findIdx?_eq_some_iff_getElem]
  refine ⟨by simp; omega, ?_, fun j before => ?_⟩
  · simp [show s + (q - s) = q by omega, keep]
  · simp only [List.getElem_take, List.getElem_drop, Bool.not_eq_eq_eq_not, Bool.not_true,
      Bool.not_eq_false]
    exact filler (s + j) (by omega) (by omega) (by omega)

/-! ### Cut points -/

section Cuts

variable {stream : List Instruction} {starts : List Nat}

theorem getD_append_singleton {last k : Nat} (hk : k ≤ starts.length) :
    (starts ++ [last]).getD k 0 = if h : k < starts.length then starts[k] else last := by
  split
  · rename_i h
    rw [List.getD_eq_getElem?_getD, List.getElem?_append_left h, List.getElem?_eq_getElem h,
      Option.getD_some]
  · have : k = starts.length := by omega
    subst this
    simp

/-- Where block `k` ends: at the next cut point, or at the end of the stream. -/
theorem stop_cutBlocks {k : Nat} (hk : k < starts.length) :
    (starts.tail ++ [stream.length]).getD k stream.length =
      (starts ++ [stream.length]).getD (k + 1) 0 := by
  rw [getD_tail_append hk, getD_append_singleton (by omega)]

theorem getElem_lt_stop (sorted : starts.Pairwise (· < ·)) (bounded : ∀ c ∈ starts, c < stream.length)
    {k : Nat} (hk : k < starts.length) :
    starts[k] < (starts ++ [stream.length]).getD (k + 1) 0 := by
  rw [getD_append_singleton (by omega)]
  split
  · exact List.pairwise_iff_getElem.mp sorted k (k + 1) hk ‹_› (Nat.lt_succ_self k)
  · exact bounded _ (List.getElem_mem hk)

variable (sorted : starts.Pairwise (· < ·)) (zero : starts[0]? = some 0)
  (bounded : ∀ c ∈ starts, c < stream.length)
include sorted zero bounded

/-- **The first `k` blocks, joined, are the stream up to the `k`-th cut point.** -/
theorem flatten_take_cutBlocks {k : Nat} (hk : k ≤ starts.length) :
    (((cutBlocks stream starts).take k).map Block.instructions).flatten =
      stream.take ((starts ++ [stream.length]).getD k 0) := by
  induction k with
  | zero =>
    have nonempty : 0 < starts.length := List.length_pos_iff.mpr (by rintro rfl; simp at zero)
    have atZero : starts[0] = 0 := by simpa [List.getElem?_eq_getElem nonempty] using zero
    rw [getD_append_singleton (Nat.zero_le _), dif_pos nonempty, atZero]
    simp
  | succ k ih =>
    have inCuts : k < starts.length := by omega
    have below : k < (cutBlocks stream starts).length := by rw [length_cutBlocks]; exact inCuts
    have low := getElem_lt_stop sorted bounded inCuts
    rw [List.take_add_one, List.getElem?_eq_getElem below, List.map_append, List.flatten_append,
      ih (by omega), getElem_cutBlocks inCuts below, stop_cutBlocks inCuts,
      getD_append_singleton (Nat.le_of_lt inCuts), dif_pos inCuts]
    simp only [Option.toList_some, List.map_cons, List.map_nil, List.flatten_cons,
      List.flatten_nil, List.append_nil]
    rw [← List.take_add, Nat.add_sub_cancel' (Nat.le_of_lt low)]

/-- The instructions of the first `k` blocks number as many as the positions before the `k`-th
cut point. -/
theorem sum_take_cutBlocks {k : Nat} (hk : k ≤ starts.length) :
    (((cutBlocks stream starts).take k).map fun b => b.instructions.length).sum =
      (starts ++ [stream.length]).getD k 0 := by
  have joined := congrArg List.length (flatten_take_cutBlocks sorted zero bounded hk)
  have upTo : (starts ++ [stream.length]).getD k 0 ≤ stream.length := by
    rw [getD_append_singleton hk]
    split
    · exact Nat.le_of_lt (bounded _ (List.getElem_mem _))
    · exact Nat.le_refl _
  rw [List.length_flatten, List.map_map, List.length_take, Nat.min_eq_left upTo] at joined
  exact joined

end Cuts

/-- The `k`-th member of a strictly increasing list is in block `k`. -/
theorem blockAt_getElem {starts : List Nat} (sorted : starts.Pairwise (· < ·)) {k : Nat}
    (hk : k < starts.length) : blockAt starts starts[k] = k := by
  have atK := (getElem_le_iff_lt_length_filter sorted hk).mp (Nat.le_refl _)
  have bound : (starts.filter (· ≤ starts[k])).length ≤ k + 1 := by
    by_cases next : k + 1 < starts.length
    · have later := List.pairwise_iff_getElem.mp sorted k (k + 1) hk next (Nat.lt_succ_self k)
      have notAtNext : ¬ k + 1 < (starts.filter (· ≤ starts[k])).length := fun inside =>
        absurd ((getElem_le_iff_lt_length_filter sorted next).mpr inside) (by omega)
      omega
    · have := List.length_filter_le (· ≤ starts[k]) starts
      omega
  unfold blockAt
  omega

/-! ### Leaders -/

section Leaders

variable {stream : List Instruction}

/-- **The leaders that jumps give**: the first marker of each label that a jump names, and the
first instruction that is not filler after each conditional jump. -/
theorem mem_jumpLeaders_iff {pos : Nat} :
    pos ∈ jumpLeaders stream (firstMarkers stream) ↔
      (∃ p, ∃ h : p < stream.length, stream[p].role.isJump = true ∧
        ∃ label, stream[p].target = some label ∧ FirstMarker stream label pos) ∨
      (∃ p, ∃ h : p < stream.length, stream[p].role = .condJump ∧
        NextNonFiller stream (p + 1) pos) := by
  constructor
  · intro leads
    simp only [jumpLeaders, List.mem_flatMap] at leads
    obtain ⟨⟨insn, p⟩, inZip, member⟩ := leads
    obtain ⟨h, rfl⟩ : ∃ h : p < stream.length, stream[p] = insn := by
      simpa [List.getElem?_eq_some_iff] using List.mem_zipIdx_iff_getElem?.mp inZip
    split at member
    · rename_i isJump
      rcases List.mem_append.mp member with taken | following
      · obtain ⟨label, named, found⟩ := Option.bind_eq_some_iff.mp (Option.mem_toList.mp taken)
        simp only [Instruction.jumpTarget, if_pos isJump] at named
        exact .inl ⟨p, h, isJump, label, named, lookup_firstMarkers_eq_some_iff.mp found⟩
      · split at following
        · rename_i isCond
          exact .inr ⟨p, h, isCond,
            nextExecutable_eq_some_iff_next.mp (Option.mem_toList.mp following)⟩
        · cases following
    · cases member
  · rintro (⟨p, h, isJump, label, named, marker⟩ | ⟨p, h, isCond, following⟩)
    · simp only [jumpLeaders, List.mem_flatMap]
      refine ⟨(stream[p], p), List.mem_zipIdx_iff_getElem?.mpr (List.getElem?_eq_getElem h), ?_⟩
      simp [isJump, Instruction.jumpTarget, named, lookup_firstMarkers_eq_some_iff.mpr marker]
    · simp only [jumpLeaders, List.mem_flatMap]
      refine ⟨(stream[p], p), List.mem_zipIdx_iff_getElem?.mpr (List.getElem?_eq_getElem h), ?_⟩
      simp [isCond, Role.isJump, nextExecutable_eq_some_iff_next.mpr following]

theorem IsLeader.lt_length {start pos : Nat} (nonFiller : NonFiller stream start)
    (leads : IsLeader stream start pos) : pos < stream.length := by
  rcases leads with ⟨_, h, _⟩ | rfl | ⟨_, _, _, _, _, h, _⟩ | ⟨_, _, _, _, h, _⟩
  · exact h
  · exact nonFiller.fst
  · exact h
  · exact h

/-- **The leaders the build collects are the leaders of the stream**, for the entry it starts
from. -/
theorem mem_leaders_iff_isLeader {first : Nat} {entry : Option Nat}
    (found : nextExecutable stream 0 = some first) {start : Nat} (startIs : entry.getD first = start)
    (nonFiller : NonFiller stream start) {pos : Nat} :
    pos ∈ leaders stream first entry ↔ IsLeader stream start pos := by
  have firstIff : NextNonFiller stream 0 pos ↔ pos = first := by
    rw [← nextExecutable_eq_some_iff_next, found, Option.some_inj, eq_comm]
  have entryIff : pos = first ∨ entry = some pos ↔ NextNonFiller stream 0 pos ∨ pos = start := by
    rw [firstIff, ← startIs]
    cases entry with
    | none => simp
    | some e => simp [eq_comm]
  constructor
  · intro leads
    obtain ⟨_, named | jumped⟩ := mem_leaders_iff.mp leads |>.imp_right or_assoc.mpr
    · rcases entryIff.mp named with isFirst | isStart
      · exact .inl isFirst
      · exact .inr (.inl isStart)
    · exact .inr (.inr (mem_jumpLeaders_iff.mp jumped))
  · intro leads
    refine mem_leaders_iff.mpr ⟨IsLeader.lt_length nonFiller leads, ?_⟩
    rcases leads with isFirst | isStart | jumped
    · exact or_assoc.mp (.inl (entryIff.mpr (.inl isFirst)))
    · exact or_assoc.mp (.inl (entryIff.mpr (.inr isStart)))
    · exact .inr (.inr (mem_jumpLeaders_iff.mpr jumped))

end Leaders

/-! ### The assembled graph -/

section Assembled

variable {stream : List Instruction} {first : Nat} {entry : Option Nat}
  (found : nextExecutable stream 0 = some first) (entryOk : ∀ pos ∈ entry, NonFiller stream pos)
include found entryOk

theorem offset_assemble {k : Nat} (hk : k ≤ (assemble stream first entry).size) :
    (assemble stream first entry).offset k =
      (cutPoints stream first entry ++ [stream.length]).getD k 0 := by
  rw [size_assemble] at hk
  exact sum_take_cutBlocks (pairwise_cutPoints found entryOk) (getElem?_zero_cutPoints found entryOk)
    (fun _ cut => lt_length_of_mem_cutPoints found entryOk cut) hk

/-- **The blocks, joined, give back the stream.** -/
theorem flatten_assemble : ((assemble stream first entry).blocks.map Block.instructions).flatten =
    stream := by
  have whole := flatten_take_cutBlocks (pairwise_cutPoints found entryOk)
    (getElem?_zero_cutPoints found entryOk)
    (fun _ cut => lt_length_of_mem_cutPoints found entryOk cut) (Nat.le_refl _)
  rw [getD_append_singleton (Nat.le_refl _), dif_neg (Nat.lt_irrefl _), List.take_length,
    ← length_cutBlocks stream (cutPoints stream first entry), List.take_length] at whole
  exact whole

/-- There are as many cut points as leaders. -/
theorem length_cutPoints :
    (cutPoints stream first entry).length = (leaders stream first entry).length := by
  obtain ⟨rest, listed, cut⟩ := cutPoints_eq_cons found entryOk
  rw [cut, listed]
  rfl

/-- Past the first block, a block is cut at its leader. -/
theorem getElem_cutPoints_of_pos {k : Nat} (positive : 0 < k)
    (hc : k < (cutPoints stream first entry).length) (hl : k < (leaders stream first entry).length) :
    (cutPoints stream first entry)[k] = (leaders stream first entry)[k] := by
  obtain ⟨rest, listed, cut⟩ := cutPoints_eq_cons found entryOk
  obtain ⟨j, rfl⟩ : ∃ j, k = j + 1 := ⟨k - 1, by omega⟩
  simp only [cut, listed]
  rfl

theorem length_leaders_assemble :
    (leaders stream first entry).length = (assemble stream first entry).size := by
  rw [size_assemble, length_cutPoints found entryOk]

/-- The `k`-th leader is the first instruction that is not filler from the `k`-th cut point. -/
theorem nextNonFiller_cutPoints {k : Nat} (hc : k < (cutPoints stream first entry).length)
    (hl : k < (leaders stream first entry).length) :
    NextNonFiller stream (cutPoints stream first entry)[k] (leaders stream first entry)[k] := by
  rcases Nat.eq_zero_or_pos k with rfl | positive
  · -- the first block is cut at `0`, and its leader is the first instruction that is not filler
    obtain ⟨rest, listed, cut⟩ := cutPoints_eq_cons found entryOk
    simp only [cut, listed, List.getElem_cons_zero]
    exact nextExecutable_eq_some_iff_next.mp found
  · obtain ⟨h, keep⟩ := nonFiller_of_mem_leaders found entryOk (List.getElem_mem hl)
    rw [getElem_cutPoints_of_pos found entryOk positive hc hl]
    exact ⟨Nat.le_refl _, h, keep, fun i _ low high => absurd high (by omega)⟩

/-- The `k`-th leader comes before the next cut point, or before the end of the stream. -/
theorem leader_lt_stop {k : Nat} (hl : k < (leaders stream first entry).length) :
    (leaders stream first entry)[k] <
      (cutPoints stream first entry ++ [stream.length]).getD (k + 1) 0 := by
  have sameLength := length_cutPoints found entryOk
  rw [getD_append_singleton (by omega)]
  split
  · rename_i later
    rw [getElem_cutPoints_of_pos found entryOk (Nat.succ_pos k) later (by omega)]
    exact List.pairwise_iff_getElem.mp (pairwise_leaders stream first entry) k (k + 1) hl
      (by omega) (Nat.lt_succ_self k)
  · exact (mem_leaders_iff.mp (List.getElem_mem hl)).1

/-- **The lead of block `k` is the `k`-th leader.** The block runs from its cut point up to the
next, and the leader is the first instruction from its cut point that is not filler. -/
theorem leadOf_assemble {k : Nat} (hk : k < (leaders stream first entry).length) :
    (assemble stream first entry).leadOf k = some (leaders stream first entry)[k] := by
  have inCuts : k < (cutPoints stream first entry).length := by
    rw [length_cutPoints found entryOk]
    exact hk
  have inBlocks : k < (assemble stream first entry).blocks.length := by
    rw [assemble_blocks, length_cutBlocks]
    exact inCuts
  have next := nextNonFiller_cutPoints found entryOk inCuts hk
  have within : (leaders stream first entry)[k] < (cutPoints stream first entry)[k] +
      ((cutPoints stream first entry ++ [stream.length]).getD (k + 1) 0 -
        (cutPoints stream first entry)[k]) := by
    have ahead := leader_lt_stop found entryOk hk
    omega
  rw [leadOf_eq _ inBlocks, offset_assemble found entryOk (by rw [size_assemble]; omega),
    getD_append_singleton (by omega), dif_pos inCuts]
  simp only [assemble_blocks]
  rw [getElem_cutBlocks inCuts (by rw [length_cutBlocks]; exact inCuts), stop_cutBlocks inCuts,
    findIdx?_take_drop next within, Option.map_some, Nat.add_sub_cancel' next.1]

/-- A leader leads the block it was cut at. -/
theorem blockAt_leader {k : Nat} (hk : k < (leaders stream first entry).length) :
    blockAt (cutPoints stream first entry) (leaders stream first entry)[k] = k := by
  rcases Nat.eq_zero_or_pos k with rfl | positive
  · obtain ⟨rest, listed, _⟩ := cutPoints_eq_cons found entryOk
    simp only [listed, List.getElem_cons_zero]
    exact blockAt_cutPoints_first found entryOk
  · have inCuts : k < (cutPoints stream first entry).length := by
      rw [length_cutPoints found entryOk]
      exact hk
    rw [← getElem_cutPoints_of_pos found entryOk positive inCuts hk]
    exact blockAt_getElem (pairwise_cutPoints found entryOk) inCuts

/-- The block that `blockAt` names holds the position. -/
theorem holds_assemble {pos : Nat} (below : pos < stream.length) :
    (assemble stream first entry).Holds (blockAt (cutPoints stream first entry) pos) pos := by
  have sorted := pairwise_cutPoints found entryOk
  have nonempty : cutPoints stream first entry ≠ [] :=
    List.ne_nil_of_mem (zero_mem_cutPoints found entryOk)
  have index := blockAt_lt nonempty pos
  have counted : 0 < ((cutPoints stream first entry).filter (· ≤ pos)).length :=
    List.length_pos_iff.mpr (List.ne_nil_of_mem
      (List.mem_filter.mpr ⟨zero_mem_cutPoints found entryOk, by simp⟩))
  have fromCut : (cutPoints stream first entry)[blockAt (cutPoints stream first entry) pos] ≤ pos :=
    (getElem_le_iff_lt_length_filter sorted index).mpr (by unfold blockAt; omega)
  refine ⟨by rw [size_assemble]; exact index, ?_, ?_⟩
  · rw [offset_assemble found entryOk (by rw [size_assemble]; omega), getD_append_singleton (by omega),
      dif_pos index]
    exact fromCut
  · rw [offset_assemble found entryOk (by rw [size_assemble]; omega), getD_append_singleton (by omega)]
    split
    · rename_i next
      have beyond : ¬ (cutPoints stream first entry)[blockAt (cutPoints stream first entry) pos + 1] ≤ pos :=
        fun inside => absurd ((getElem_le_iff_lt_length_filter sorted next).mp inside) (by unfold blockAt; omega)
      omega
    · exact below

end Assembled

/-! ### The label map -/

section Markers

/-- Reading one more instruction adds its label to the map when it is a marker of a label the map
does not have yet. -/
theorem firstMarkers_append_singleton (xs : List Instruction) (x : Instruction) :
    firstMarkers (xs ++ [x]) = match x.label with
      | some label =>
        if x.role = .label ∧ (firstMarkers xs).lookup label = none then
          firstMarkers xs ++ [(label, xs.length)]
        else firstMarkers xs
      | none => firstMarkers xs := by
  rw [firstMarkers, List.zipIdx_append, List.foldl_append, ← firstMarkers]
  simp only [List.zipIdx_singleton, Nat.zero_add, List.foldl_cons, List.foldl_nil]
  cases x.label with
  | none => rfl
  | some label => exact if_congr (by simp [Option.isNone_iff_eq_none]) rfl rfl

/-- **The label map lists its labels at increasing positions, all inside the stream.** -/
theorem pairwise_firstMarkers (stream : List Instruction) :
    ((firstMarkers stream).map Prod.snd).Pairwise (· < ·) ∧
      ∀ marker ∈ firstMarkers stream, marker.2 < stream.length := by
  induction stream using List.reverseRecOn with
  | nil => simp [firstMarkers]
  | append_singleton xs x ih =>
    obtain ⟨sorted, inside⟩ := ih
    rw [firstMarkers_append_singleton]
    have longer : ∀ marker ∈ firstMarkers xs, marker.2 < (xs ++ [x]).length := fun marker member => by
      have := inside marker member
      simp only [List.length_append, List.length_singleton]
      omega
    split
    · split
      · refine ⟨?_, fun marker member => ?_⟩
        · rw [List.map_append, List.pairwise_append]
          refine ⟨sorted, List.pairwise_singleton _ _, fun a inOld b inNew => ?_⟩
          obtain ⟨marker, member, rfl⟩ := List.mem_map.mp inOld
          rw [List.map_singleton, List.mem_singleton] at inNew
          rw [inNew]
          exact inside marker member
        · rcases List.mem_append.mp member with old | new
          · exact longer marker old
          · rw [List.mem_singleton.mp new]
            simp
      · exact ⟨sorted, longer⟩
    · exact ⟨sorted, longer⟩

/-- **Each label of the map is listed once, at its first marker.** -/
theorem mem_firstMarkers_iff_lookup (stream : List Instruction) {label : Label} {m : Nat} :
    (label, m) ∈ firstMarkers stream ↔ (firstMarkers stream).lookup label = some m := by
  induction stream using List.reverseRecOn with
  | nil => simp [firstMarkers]
  | append_singleton xs x ih =>
    rw [firstMarkers_append_singleton]
    split
    · rename_i defined _
      split
      · rename_i fresh
        rw [List.mem_append, List.mem_singleton, ih, List.lookup_append, Prod.mk.injEq]
        by_cases same : label = defined
        · subst same
          simp [fresh.2, eq_comm]
        · have other : [(defined, xs.length)].lookup label = none := by
            simp [List.lookup_cons, beq_false_of_ne same]
          simp [other, same]
      · exact ih
    · exact ih

theorem mem_firstMarkers_iff (stream : List Instruction) {label : Label} {m : Nat} :
    (label, m) ∈ firstMarkers stream ↔ FirstMarker stream label m := by
  rw [mem_firstMarkers_iff_lookup, lookup_firstMarkers_eq_some_iff]

end Markers

/-! ### The main statement -/

/-- A build succeeds when execution can start at an instruction that is not filler. -/
theorem entry_of_startsAt {stream : List Instruction} {entry : EntryPoint stream.length}
    {start : Nat} (starts : StartsAt stream entry start) (nonFiller : NonFiller stream start) :
    ∃ first entryPos, nextExecutable stream 0 = some first ∧
      entryPosition stream entry = .ok entryPos ∧ entryPos.getD first = start := by
  obtain ⟨first, found, _⟩ := exists_nextExecutable_le (Nat.zero_le start) nonFiller
  match entry, starts with
  | .first, starts => exact ⟨first, none, found, rfl, (eq_of_startsAt_first starts found).symm⟩
  | .at pos, starts =>
    obtain ⟨h, keep⟩ := nonFiller
    have atPos : start = pos.val := starts
    subst atPos
    refine ⟨first, some pos.val, found, ?_, rfl⟩
    simp [entryPosition, keep]
  | .outside _, starts => exact starts.elim

/-- **How a build cuts a stream into blocks.** For every stream with an instruction other than
filler and every entry among those instructions, the build succeeds. Its blocks, joined, give
back the stream. The leads of the blocks, the first positions in them that hold no filler, are the
leaders of the stream in increasing order, one per block, so there are as many blocks as
leaders; every block but the first starts with its lead, so only the first can start with
filler. The entry block is the block the entry leads. The label map has each label with a marker
once, in the order of their first markers, and sends it to the block that holds its first
marker. -/
theorem partition_of_build {stream : List Instruction} {entry : EntryPoint stream.length}
    {start : Nat} (starts : StartsAt stream entry start) (nonFiller : NonFiller stream start) :
    ∃ g, build stream entry = .ok g ∧
      (g.blocks.map Block.instructions).flatten = stream ∧
      (∃ leads : List Nat, leads.Pairwise (· < ·) ∧
        (∀ pos, pos ∈ leads ↔ IsLeader stream start pos) ∧
        (List.range g.size).map g.leadOf = leads.map some) ∧
      (∀ i, 0 < i → i < g.size → g.leadOf i = some (g.offset i)) ∧
      g.leadOf g.entry = some start ∧
      ∃ markers : List (Label × Nat), (markers.map Prod.snd).Pairwise (· < ·) ∧
        (∀ label m, (label, m) ∈ markers ↔ FirstMarker stream label m) ∧
        List.Forall₂ (fun label marker => label.1 = marker.1 ∧ g.Holds label.2 marker.2)
          g.labels markers := by
  obtain ⟨first, entryPos, found, entered, startIs⟩ := entry_of_startsAt starts nonFiller
  have entryOk := (startsAt_of_entryPosition found entered).1
  have built := build_eq_ok_iff.mpr ⟨first, entryPos, found, entered, rfl⟩
  have sizeIs := length_leaders_assemble found entryOk
  have leadIs : ∀ k (hk : k < (leaders stream first entryPos).length),
      (assemble stream first entryPos).leadOf k = some (leaders stream first entryPos)[k] :=
    fun k hk => leadOf_assemble found entryOk hk
  refine ⟨_, built, flatten_assemble found entryOk, ⟨leaders stream first entryPos,
    pairwise_leaders stream first entryPos, fun pos => mem_leaders_iff_isLeader found startIs nonFiller,
    ?_⟩, fun i positive below => ?_, ?_, firstMarkers stream, (pairwise_firstMarkers stream).1,
    fun label m => mem_firstMarkers_iff stream, ?_⟩
  · -- one lead per block: the leaders, in order
    refine List.ext_getElem (by simp [sizeIs]) fun k inRange inLeads => ?_
    simp only [List.getElem_map, List.getElem_range]
    exact leadIs k (by simpa using inLeads)
  · -- a block after the first starts at its cut point, which is its leader
    have inCuts : i < (cutPoints stream first entryPos).length := by
      rw [← size_assemble]
      exact below
    rw [leadIs i (sizeIs ▸ below), offset_assemble found entryOk (Nat.le_of_lt below),
      getD_append_singleton (Nat.le_of_lt inCuts), dif_pos inCuts,
      getElem_cutPoints_of_pos found entryOk positive inCuts (sizeIs ▸ below)]
  · -- the entry block is the block its leader was cut at
    have leads := mem_leaders_getD found entryOk
    rw [startIs] at leads
    obtain ⟨k, hk, atK⟩ := List.getElem_of_mem leads
    rw [entry_assemble found entryOk, startIs, ← atK, blockAt_leader found entryOk hk]
    exact leadIs k hk
  · -- each label goes to the block that holds its first marker
    rw [assemble_labels, List.forall₂_map_left_iff, List.forall₂_same]
    intro marker member
    have below := (pairwise_firstMarkers stream).2 marker member
    exact ⟨rfl, holds_assemble found entryOk below⟩

theorem partition_of_countdown :
    StartsAt countdown .first 1 ∧ NonFiller countdown 1 ∧
      ∃ g, build countdown .first = .ok g ∧
        (g.blocks.map Block.instructions).flatten = countdown ∧
        (∃ leads : List Nat, leads.Pairwise (· < ·) ∧
          (∀ pos, pos ∈ leads ↔ IsLeader countdown 1 pos) ∧
          (List.range g.size).map g.leadOf = leads.map some) ∧
        (∀ i, 0 < i → i < g.size → g.leadOf i = some (g.offset i)) ∧
        g.leadOf g.entry = some 1 ∧
        ∃ markers : List (Label × Nat), (markers.map Prod.snd).Pairwise (· < ·) ∧
          (∀ label m, (label, m) ∈ markers ↔ FirstMarker countdown label m) ∧
          List.Forall₂ (fun label marker => label.1 = marker.1 ∧ g.Holds label.2 marker.2)
            g.labels markers := by
  have starts : StartsAt countdown .first 1 := nextExecutable_eq_some_iff_next.mp (by decide)
  have nonFiller : NonFiller countdown 1 := ⟨by decide, by decide⟩
  exact ⟨starts, nonFiller, partition_of_build starts nonFiller⟩

end Graph

end Flowgraph
