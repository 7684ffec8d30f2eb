import Mathlib.Data.List.Basic
import Mathlib.Data.List.Induction
import Mathlib.Data.Nat.Find
import Flowgraph.Proofs.Build

/-!
**How a build cuts a stream into blocks.**

A build cuts the stream at its cut points: the leaders, except that the first block starts at
position `0` and so takes the filler before the first executable instruction. The block of a
position counts the cut points up to it (`blockAt`).

* `leaders_eq_cons`: the first executable position is the least leader, and every leader holds
  an instruction other than filler;
* `blockAt_eq_of_gap`, `blockAt_succ`: positions with no cut point between them share a block,
  and a cut point moves the next position one block on;
* `span_of_mem_cutBlocks`: each block holds exactly the positions whose block it is, in order;
* `blockOf_assemble`: the graph finds every position of the stream in the block `blockAt` gives;
* `terminal_eq_of_append`: the terminal of a block is its last executed instruction.
-/

namespace Flowgraph

namespace Instruction

/-- The instruction is a marker of `label`. -/
def marks (insn : Instruction) (label : Label) : Bool :=
  insn.role == .label && insn.label == some label

end Instruction

namespace Graph

/-- Position `pos` of the stream holds an instruction that is not filler. -/
def NonFiller (stream : List Instruction) (pos : Nat) : Prop :=
  ∃ h : pos < stream.length, stream[pos].isFiller = false

theorem NonFiller.isFiller_ne_true {stream : List Instruction} {pos : Nat}
    (nonFiller : NonFiller stream pos) (h : pos < stream.length) : stream[pos].isFiller ≠ true := by
  obtain ⟨_, keep⟩ := nonFiller
  rw [keep]
  exact Bool.false_ne_true

/-! ### Markers -/

/-- The first marker of a label is the first instruction that marks it. -/
theorem lookup_firstMarkers (stream : List Instruction) (label : Label) :
    (firstMarkers stream).lookup label = stream.findIdx? (·.marks label) := by
  induction stream using List.reverseRecOn with
  | nil => rfl
  | append_singleton xs x ih =>
    rw [firstMarkers, List.zipIdx_append, List.foldl_append, ← firstMarkers, List.findIdx?_append,
      ← ih]
    simp only [List.zipIdx_singleton, Nat.zero_add, List.foldl_cons, List.foldl_nil,
      List.findIdx?_singleton]
    rcases labelled : x.label with _ | defined
    · simp [Instruction.marks, labelled]
    · by_cases same : defined = label
      · subst same
        cases known : (firstMarkers xs).lookup defined <;> by_cases isMarker : x.role = .label <;>
          simp [Instruction.marks, labelled, known, isMarker, List.lookup_append]
      · -- a marker of another label leaves the look-up of `label` as it was
        have other : x.marks label = false := by simp [Instruction.marks, labelled, same]
        rw [other, if_neg Bool.false_ne_true, Option.map_none, Option.or_none]
        dsimp only
        split
        · have differ : (label == defined) = false := beq_eq_false_iff_ne.mpr (Ne.symm same)
          simp [List.lookup_append, List.lookup_cons, List.lookup_nil, differ]
        · rfl

theorem marks_of_lookup_firstMarkers {stream : List Instruction} {label : Label} {m : Nat}
    (found : (firstMarkers stream).lookup label = some m) :
    ∃ h : m < stream.length, stream[m].marks label = true := by
  rw [lookup_firstMarkers, List.findIdx?_eq_some_iff_getElem] at found
  obtain ⟨h, marked, _⟩ := found
  exact ⟨h, marked⟩

theorem Instruction.isFiller_eq_false_of_marks {insn : Instruction} {label : Label}
    (marked : insn.marks label = true) : insn.isFiller = false := by
  simp only [Instruction.marks, Bool.and_eq_true, beq_iff_eq] at marked
  simp [Instruction.isFiller, marked.1]

/-! ### Leaders -/

section Leaders

variable {stream : List Instruction} {first : Nat} {entry : Option Nat}

theorem nonFiller_of_nextExecutable {pos q : Nat} (found : nextExecutable stream pos = some q) :
    NonFiller stream q := by
  obtain ⟨_, h, keep, _⟩ := nextExecutable_eq_some_iff.mp found
  exact ⟨h, keep⟩

/-- A position that holds no filler bounds the next executable position before it. -/
theorem exists_nextExecutable_le {pos i : Nat} (low : pos ≤ i) (nonFiller : NonFiller stream i) :
    ∃ q, nextExecutable stream pos = some q ∧ q ≤ i := by
  have ⟨h, keep⟩ := nonFiller
  cases found : nextExecutable stream pos with
  | none =>
    -- the search passes position `i`, which it would have taken
    have skipped := List.find?_eq_none.mp (Option.map_eq_none_iff.mp found)
      (stream[i], i) (List.mem_iff_getElem.mpr
        ⟨i - pos, by simp; omega, by simp [show pos + (i - pos) = i by omega]⟩)
    simp [keep] at skipped
  | some q =>
    obtain ⟨_, _, _, before⟩ := nextExecutable_eq_some_iff.mp found
    exact ⟨q, rfl, Nat.le_of_not_lt fun later =>
      nonFiller.isFiller_ne_true h (before i h low later)⟩

/-- The first executable position comes before every other position that holds no filler. -/
theorem first_le_of_nonFiller (found : nextExecutable stream 0 = some first) {pos : Nat}
    (nonFiller : NonFiller stream pos) : first ≤ pos := by
  obtain ⟨_, _, _, before⟩ := nextExecutable_eq_some_iff.mp found
  have ⟨h, _⟩ := nonFiller
  by_contra later
  exact nonFiller.isFiller_ne_true h (before pos h (Nat.zero_le pos) (by omega))

theorem nonFiller_of_mem_jumpLeaders {pos : Nat}
    (leads : pos ∈ jumpLeaders stream (firstMarkers stream)) : NonFiller stream pos := by
  simp only [jumpLeaders, List.mem_flatMap] at leads
  obtain ⟨⟨insn, p⟩, _, member⟩ := leads
  split at member
  · rcases List.mem_append.mp member with taken | following
    · obtain ⟨label, _, found⟩ := Option.bind_eq_some_iff.mp (Option.mem_toList.mp taken)
      obtain ⟨h, marked⟩ := marks_of_lookup_firstMarkers found
      exact ⟨h, Instruction.isFiller_eq_false_of_marks marked⟩
    · split at following
      · exact nonFiller_of_nextExecutable (Option.mem_toList.mp following)
      · cases following
  · cases member

/-- Every leader holds an instruction other than filler, when the entry does. -/
theorem nonFiller_of_mem_leaders (found : nextExecutable stream 0 = some first)
    (entryOk : ∀ pos ∈ entry, NonFiller stream pos) {pos : Nat}
    (leads : pos ∈ leaders stream first entry) : NonFiller stream pos := by
  obtain ⟨_, isFirst | isEntry | jumped⟩ := mem_leaders_iff.mp leads
  · exact isFirst ▸ nonFiller_of_nextExecutable found
  · exact entryOk pos isEntry
  · exact nonFiller_of_mem_jumpLeaders jumped

/-- **The first executable position is the least leader.** -/
theorem leaders_eq_cons (found : nextExecutable stream 0 = some first)
    (entryOk : ∀ pos ∈ entry, NonFiller stream pos) :
    ∃ rest, leaders stream first entry = first :: rest := by
  have member : first ∈ leaders stream first entry :=
    mem_leaders_iff.mpr ⟨lt_length_of_nextExecutable found, .inl rfl⟩
  have sorted := pairwise_leaders stream first entry
  cases listed : leaders stream first entry with
  | nil => rw [listed] at member; cases member
  | cons least rest =>
    have leads : least ∈ leaders stream first entry := listed ▸ List.mem_cons_self
    have low := first_le_of_nonFiller found (nonFiller_of_mem_leaders found entryOk leads)
    rw [listed] at member sorted
    rcases List.mem_cons.mp member with same | later
    · exact ⟨rest, by rw [same]⟩
    · have := (List.pairwise_cons.mp sorted).1 first later
      omega

theorem mem_leaders_of_jump {p : Nat} (below : p < stream.length)
    (isJump : stream[p].role.isJump = true) {label : Label} {m : Nat}
    (target : stream[p].target = some label) (found : (firstMarkers stream).lookup label = some m) :
    m ∈ leaders stream first entry := by
  obtain ⟨h, _⟩ := marks_of_lookup_firstMarkers found
  refine mem_leaders_iff.mpr ⟨h, .inr (.inr ?_)⟩
  simp only [jumpLeaders, List.mem_flatMap]
  refine ⟨(stream[p], p), List.mem_zipIdx_iff_getElem?.mpr (List.getElem?_eq_getElem below), ?_⟩
  simp [isJump, Instruction.jumpTarget, target, found]

theorem mem_leaders_of_condJump {p : Nat} (below : p < stream.length)
    (isCond : stream[p].role = .condJump) {q : Nat}
    (found : nextExecutable stream (p + 1) = some q) : q ∈ leaders stream first entry := by
  refine mem_leaders_iff.mpr ⟨lt_length_of_nextExecutable found, .inr (.inr ?_)⟩
  simp only [jumpLeaders, List.mem_flatMap]
  refine ⟨(stream[p], p), List.mem_zipIdx_iff_getElem?.mpr (List.getElem?_eq_getElem below), ?_⟩
  simp [isCond, Role.isJump, found]

theorem mem_leaders_of_entry {pos : Nat} (below : pos < stream.length) (isEntry : entry = some pos) :
    pos ∈ leaders stream first entry :=
  mem_leaders_iff.mpr ⟨below, .inr (.inl isEntry)⟩

/-! ### Cut points -/

/-- The cut points are the leaders with the first one moved to position `0`. -/
theorem cutPoints_eq_cons (found : nextExecutable stream 0 = some first)
    (entryOk : ∀ pos ∈ entry, NonFiller stream pos) :
    ∃ rest, leaders stream first entry = first :: rest ∧ cutPoints stream first entry = 0 :: rest := by
  obtain ⟨rest, listed⟩ := leaders_eq_cons found entryOk
  exact ⟨rest, listed, by rw [cutPoints, listed]⟩

theorem pairwise_cutPoints (found : nextExecutable stream 0 = some first)
    (entryOk : ∀ pos ∈ entry, NonFiller stream pos) :
    (cutPoints stream first entry).Pairwise (· < ·) := by
  obtain ⟨rest, listed, cut⟩ := cutPoints_eq_cons found entryOk
  have sorted := pairwise_leaders stream first entry
  rw [listed, List.pairwise_cons] at sorted
  rw [cut, List.pairwise_cons]
  exact ⟨fun c later => Nat.lt_of_le_of_lt (Nat.zero_le first) (sorted.1 c later), sorted.2⟩

theorem getElem?_zero_cutPoints (found : nextExecutable stream 0 = some first)
    (entryOk : ∀ pos ∈ entry, NonFiller stream pos) :
    (cutPoints stream first entry)[0]? = some 0 := by
  obtain ⟨rest, _, cut⟩ := cutPoints_eq_cons found entryOk
  rw [cut]
  rfl

theorem zero_mem_cutPoints (found : nextExecutable stream 0 = some first)
    (entryOk : ∀ pos ∈ entry, NonFiller stream pos) : 0 ∈ cutPoints stream first entry :=
  List.mem_of_getElem? (getElem?_zero_cutPoints found entryOk)

theorem lt_length_of_mem_cutPoints (found : nextExecutable stream 0 = some first)
    (entryOk : ∀ pos ∈ entry, NonFiller stream pos) {c : Nat}
    (member : c ∈ cutPoints stream first entry) : c < stream.length := by
  obtain ⟨rest, listed, cut⟩ := cutPoints_eq_cons found entryOk
  rw [cut] at member
  rcases List.mem_cons.mp member with rfl | later
  · exact Nat.lt_of_le_of_lt (Nat.zero_le first) (lt_length_of_nextExecutable found)
  · have leads : c ∈ leaders stream first entry := listed ▸ List.mem_cons_of_mem first later
    exact (mem_leaders_iff.mp leads).1

/-- Past the first executable position, the cut points are the leaders. -/
theorem mem_cutPoints_iff_of_lt (found : nextExecutable stream 0 = some first)
    (entryOk : ∀ pos ∈ entry, NonFiller stream pos) {pos : Nat} (after : first < pos) :
    pos ∈ cutPoints stream first entry ↔ pos ∈ leaders stream first entry := by
  obtain ⟨rest, listed, cut⟩ := cutPoints_eq_cons found entryOk
  rw [cut, listed, List.mem_cons, List.mem_cons]
  constructor
  · rintro (zero | later)
    · omega
    · exact .inr later
  · rintro (same | later)
    · omega
    · exact .inr later

/-- A cut point after the first executable position holds an instruction other than filler. -/
theorem nonFiller_of_mem_cutPoints (found : nextExecutable stream 0 = some first)
    (entryOk : ∀ pos ∈ entry, NonFiller stream pos) {c : Nat}
    (member : c ∈ cutPoints stream first entry) (positive : 0 < c) : NonFiller stream c := by
  obtain ⟨rest, listed, cut⟩ := cutPoints_eq_cons found entryOk
  rw [cut] at member
  rcases List.mem_cons.mp member with rfl | later
  · omega
  · exact nonFiller_of_mem_leaders found entryOk (listed ▸ List.mem_cons_of_mem first later)

end Leaders

/-! ### The block of a position -/

section BlockAt

variable {starts : List Nat}

/-- In a strictly ascending list, the members up to `pos` are a prefix. -/
theorem getElem_le_iff_lt_length_filter (sorted : starts.Pairwise (· < ·)) {i pos : Nat}
    (hi : i < starts.length) : starts[i] ≤ pos ↔ i < (starts.filter (· ≤ pos)).length := by
  induction starts generalizing i with
  | nil => simp at hi
  | cons c rest ih =>
    obtain ⟨above, sortedRest⟩ := List.pairwise_cons.mp sorted
    by_cases low : c ≤ pos
    · cases i with
      | zero => simp [low]
      | succ i =>
        have step := ih sortedRest (i := i) (by simpa using hi)
        simp [low, step]
    · -- every member after `c` is larger still, so none is kept
      have none : rest.filter (· ≤ pos) = [] := List.filter_eq_nil_iff.mpr fun x member => by
        have := above x member
        simp only [decide_eq_true_eq]
        omega
      cases i with
      | zero => simp [low, none]
      | succ i =>
        have bound : i < rest.length := by simpa using hi
        have := above rest[i] (List.getElem_mem bound)
        simp [low, none]
        omega

/-- Positions with no block start after the first and up to the second share a block. -/
theorem blockAt_eq_of_gap {a b : Nat} (le : a ≤ b) (gap : ∀ c ∈ starts, a < c → b < c) :
    blockAt starts a = blockAt starts b := by
  unfold blockAt
  congr 2
  refine List.filter_congr fun c member => ?_
  have := gap c member
  simp only [decide_eq_decide]
  omega

theorem length_filter_le_add {a b : Nat} (lt : a < b) (distinct : starts.Nodup)
    (gap : ∀ c ∈ starts, a < c → b ≤ c) :
    (starts.filter (· ≤ b)).length =
      (starts.filter (· ≤ a)).length + if b ∈ starts then 1 else 0 := by
  induction starts with
  | nil => simp
  | cons c rest ih =>
    obtain ⟨fresh, distinct⟩ := List.nodup_cons.mp distinct
    have restGap : ∀ c ∈ rest, a < c → b ≤ c := fun c member => gap c (List.mem_cons_of_mem _ member)
    have cGap := gap c List.mem_cons_self
    have counted := ih distinct restGap
    rw [List.filter_cons, List.filter_cons]
    by_cases same : c = b
    · subst same
      have high : ¬ c ≤ a := by omega
      simp [fresh, high] at counted ⊢
      omega
    · by_cases low : c ≤ a
      · simp [low, show c ≤ b by omega, Ne.symm same]
        split_ifs at counted ⊢ <;> omega
      · simp [low, show ¬ c ≤ b by omega, Ne.symm same]
        split_ifs at counted ⊢ <;> omega

/-- **Crossing one block start moves one block on**: when no block start lies after `a` and
before `b`, the block of `b` is that of `a`, or the next one if `b` starts a block. -/
theorem blockAt_succ {a b : Nat} (lt : a < b) (distinct : starts.Nodup) (zero : 0 ∈ starts)
    (gap : ∀ c ∈ starts, a < c → b ≤ c) :
    blockAt starts b = blockAt starts a + if b ∈ starts then 1 else 0 := by
  have counted := length_filter_le_add lt distinct gap
  have positive : 0 < (starts.filter (· ≤ a)).length :=
    List.length_pos_iff.mpr (List.ne_nil_of_mem (List.mem_filter.mpr ⟨zero, by simp⟩))
  unfold blockAt
  omega

/-- A block start after `a` and up to `b` puts `b` in a later block than `a`. -/
theorem blockAt_lt_of_mem (zero : 0 ∈ starts) {a b c : Nat} (member : c ∈ starts) (after : a < c)
    (upTo : c ≤ b) : blockAt starts a < blockAt starts b := by
  have sub : (starts.filter (· ≤ a)).Sublist (starts.filter (· ≤ b)) :=
    List.monotone_filter_right _ fun x low => by simp only [decide_eq_true_eq] at low ⊢; omega
  have longer : (starts.filter (· ≤ a)).length < (starts.filter (· ≤ b)).length := by
    refine Nat.lt_of_le_of_ne sub.length_le fun same => ?_
    have kept : c ∈ starts.filter (· ≤ a) := by
      rw [sub.eq_of_length same]
      exact List.mem_filter.mpr ⟨member, by simpa using upTo⟩
    have := (List.mem_filter.mp kept).2
    simp only [decide_eq_true_eq] at this
    omega
  have positive : 0 < (starts.filter (· ≤ a)).length :=
    List.length_pos_iff.mpr (List.ne_nil_of_mem (List.mem_filter.mpr ⟨zero, by simp⟩))
  unfold blockAt
  omega

end BlockAt

/-! ### Blocks -/

section Blocks

variable {stream : List Instruction} {starts : List Nat}

theorem getElem_cutBlocks {j : Nat} (hs : j < starts.length)
    (hj : j < (cutBlocks stream starts).length) :
    (cutBlocks stream starts)[j] =
      ⟨j, starts[j], (stream.drop starts[j]).take
        ((starts.tail ++ [stream.length]).getD j stream.length - starts[j])⟩ := by
  have ends : j < (starts.tail ++ [stream.length]).length := by
    cases starts <;> simp_all
  simp [cutBlocks, List.getElem_zipIdx, List.getElem_zip, List.getElem?_eq_getElem ends]

theorem getD_tail_append {last j : Nat} (hj : j < starts.length) :
    (starts.tail ++ [last]).getD j last =
      if h : j + 1 < starts.length then starts[j + 1] else last := by
  cases starts with
  | nil => simp at hj
  | cons c rest =>
    simp only [List.tail_cons, List.length_cons, Nat.add_lt_add_iff_right, List.getElem_cons_succ]
    split
    · rename_i inRest
      rw [List.getD_eq_getElem?_getD, List.getElem?_eq_getElem (by simp; omega),
        List.getElem_append_left inRest, Option.getD_some]
    · have last : j = rest.length := by simp at hj; omega
      subst last
      simp

variable (sorted : starts.Pairwise (· < ·)) (zero : starts[0]? = some 0)
  (bounded : ∀ c ∈ starts, c < stream.length)
include sorted zero bounded

/-- **Each block spans the positions whose block is its own**: it runs from its start up to the
next start, or to the end of the stream. -/
theorem span_of_mem_cutBlocks {blk : Block} (member : blk ∈ cutBlocks stream starts) :
    ∃ stop ≤ stream.length, blk.instructions = (stream.drop blk.start).take (stop - blk.start) ∧
      ∀ pos < stream.length, (blk.start ≤ pos ∧ pos < stop ↔ blockAt starts pos = blk.index) := by
  obtain ⟨j, hj, rfl⟩ := List.mem_iff_getElem.mp member
  have hs : j < starts.length := by simpa [length_cutBlocks] using hj
  rw [getElem_cutBlocks hs hj, getD_tail_append hs]
  refine ⟨_, ?_, rfl, fun pos below => ?_⟩
  · split
    · exact Nat.le_of_lt (bounded _ (List.getElem_mem _))
    · exact Nat.le_refl _
  · -- count the starts up to `pos`: the block of `pos` is one less
    have nonempty : 0 < starts.length := List.length_pos_iff.mpr (by rintro rfl; simp at zero)
    have atZero : starts[0] = 0 := by simpa [List.getElem?_eq_getElem nonempty] using zero
    have counted : 0 < (starts.filter (· ≤ pos)).length :=
      (getElem_le_iff_lt_length_filter sorted nonempty).mp (by omega)
    have bound : (starts.filter (· ≤ pos)).length ≤ starts.length := List.length_filter_le _ _
    have atStart : starts[j] ≤ pos ↔ j < (starts.filter (· ≤ pos)).length :=
      getElem_le_iff_lt_length_filter sorted hs
    simp only [blockAt]
    split
    · rename_i next
      have atNext : starts[j + 1] ≤ pos ↔ j + 1 < (starts.filter (· ≤ pos)).length :=
        getElem_le_iff_lt_length_filter sorted next
      omega
    · omega

theorem holds_iff_blockAt {blk : Block} (member : blk ∈ cutBlocks stream starts) {pos : Nat}
    (below : pos < stream.length) : blk.holds pos = true ↔ blockAt starts pos = blk.index := by
  obtain ⟨stop, _, cut, span⟩ := span_of_mem_cutBlocks sorted zero bounded member
  rw [← span pos below, Block.holds, cut]
  simp only [Bool.and_eq_true, decide_eq_true_eq, List.length_take, List.length_drop]
  omega

/-- The instructions of a block are those at the positions whose block it is. -/
theorem mem_instructions_iff {blk : Block} (member : blk ∈ cutBlocks stream starts)
    {insn : Instruction} : insn ∈ blk.instructions ↔
      ∃ i, ∃ h : i < stream.length, blockAt starts i = blk.index ∧ stream[i] = insn := by
  obtain ⟨stop, _, cut, span⟩ := span_of_mem_cutBlocks sorted zero bounded member
  rw [cut, List.mem_iff_getElem]
  constructor
  · rintro ⟨k, hk, rfl⟩
    simp only [List.length_take, List.length_drop] at hk
    refine ⟨blk.start + k, by omega, (span _ (by omega)).mp ⟨by omega, by omega⟩, ?_⟩
    simp
  · rintro ⟨i, h, same, rfl⟩
    obtain ⟨low, high⟩ := (span i h).mpr same
    refine ⟨i - blk.start, by simp; omega, ?_⟩
    simp only [List.getElem_take, List.getElem_drop]
    congr 1
    omega

/-- A block is its instructions before position `pos`, the instruction at `pos`, and those after,
which lie in the same block. -/
theorem instructions_eq_append {blk : Block} (member : blk ∈ cutBlocks stream starts) {pos : Nat}
    (below : pos < stream.length) (inBlock : blockAt starts pos = blk.index) :
    ∃ pre post, blk.instructions = pre ++ stream[pos] :: post ∧
      ∀ insn ∈ post, ∃ i, ∃ h : i < stream.length, pos < i ∧ blockAt starts i = blk.index ∧
        stream[i] = insn := by
  obtain ⟨stop, _, cut, span⟩ := span_of_mem_cutBlocks sorted zero bounded member
  obtain ⟨low, high⟩ := (span pos below).mpr inBlock
  refine ⟨(stream.drop blk.start).take (pos - blk.start),
    (stream.drop (pos + 1)).take (stop - (pos + 1)), ?_, fun insn inPost => ?_⟩
  · have split : stop - blk.start = (pos - blk.start) + ((stop - (pos + 1)) + 1) := by omega
    rw [cut, split, List.take_add, List.drop_drop, show blk.start + (pos - blk.start) = pos by omega,
      List.drop_eq_getElem_cons below, List.take_succ_cons]
  · obtain ⟨k, hk, rfl⟩ := List.mem_iff_getElem.mp inPost
    simp only [List.length_take, List.length_drop] at hk
    refine ⟨pos + 1 + k, by omega, by omega, (span _ (by omega)).mp ⟨by omega, by omega⟩, ?_⟩
    simp

end Blocks

/-! ### The assembled graph -/

theorem lookup_map_snd {labels : List (Label × Nat)} {f : Nat → Nat} {label : Label} :
    (labels.map fun (key, value) => (key, f value)).lookup label = (labels.lookup label).map f := by
  induction labels with
  | nil => rfl
  | cons head rest ih =>
    obtain ⟨key, value⟩ := head
    by_cases same : label = key
    · subst same
      simp
    · have differ : (label == key) = false := beq_eq_false_iff_ne.mpr same
      simp [List.lookup_cons, differ, ih]

section Assembled

variable {stream : List Instruction} {first : Nat} {entry : Option Nat}
  (found : nextExecutable stream 0 = some first) (entryOk : ∀ pos ∈ entry, NonFiller stream pos)
include found entryOk

theorem exists_block_index (pos : Nat) :
    ∃ blk ∈ (assemble stream first entry).blocks,
      blk.index = blockAt (cutPoints stream first entry) pos := by
  have nonempty : cutPoints stream first entry ≠ [] :=
    List.ne_nil_of_mem (zero_mem_cutPoints found entryOk)
  have index := blockAt_lt nonempty pos
  have inBlocks : blockAt (cutPoints stream first entry) pos <
      (cutBlocks stream (cutPoints stream first entry)).length := by
    rw [length_cutBlocks]
    exact index
  refine ⟨_, List.getElem_mem inBlocks, ?_⟩
  rw [getElem_cutBlocks index inBlocks]

/-- **The graph finds each position in the block that `blockAt` gives.** -/
theorem blockOf_assemble {pos : Nat} (below : pos < stream.length) :
    (assemble stream first entry).blockOf pos =
      some (blockAt (cutPoints stream first entry) pos) := by
  have sorted := pairwise_cutPoints found entryOk
  have zero := getElem?_zero_cutPoints found entryOk
  have bounded : ∀ c ∈ cutPoints stream first entry, c < stream.length :=
    fun c member => lt_length_of_mem_cutPoints found entryOk member
  unfold blockOf
  rw [assemble_blocks]
  cases search : (cutBlocks stream (cutPoints stream first entry)).find? (·.holds pos) with
  | none =>
    -- the block that `blockAt` names holds `pos`, so the search cannot fail
    obtain ⟨blk, member, index⟩ := exists_block_index found entryOk pos
    have holds := (holds_iff_blockAt sorted zero bounded member below).mpr index.symm
    exact absurd holds (by simpa using List.find?_eq_none.mp search _ member)
  | some blk =>
    have holds := List.find?_some search
    rw [holds_iff_blockAt sorted zero bounded (List.mem_of_find?_eq_some search) below] at holds
    rw [Option.map_some, holds]

theorem mem_instructions_assemble_iff {blk : Block}
    (member : blk ∈ (assemble stream first entry).blocks) {insn : Instruction} :
    insn ∈ blk.instructions ↔ ∃ i, ∃ h : i < stream.length,
      blockAt (cutPoints stream first entry) i = blk.index ∧ stream[i] = insn :=
  mem_instructions_iff (pairwise_cutPoints found entryOk) (getElem?_zero_cutPoints found entryOk)
    (fun _ cut => lt_length_of_mem_cutPoints found entryOk cut) member

theorem instructions_eq_append_assemble {blk : Block}
    (member : blk ∈ (assemble stream first entry).blocks) {pos : Nat} (below : pos < stream.length)
    (inBlock : blockAt (cutPoints stream first entry) pos = blk.index) :
    ∃ pre post, blk.instructions = pre ++ stream[pos] :: post ∧
      ∀ insn ∈ post, ∃ i, ∃ h : i < stream.length, pos < i ∧
        blockAt (cutPoints stream first entry) i = blk.index ∧ stream[i] = insn :=
  instructions_eq_append (pairwise_cutPoints found entryOk) (getElem?_zero_cutPoints found entryOk)
    (fun _ cut => lt_length_of_mem_cutPoints found entryOk cut) member below inBlock

theorem blockAt_cutPoints_first : blockAt (cutPoints stream first entry) first = 0 := by
  obtain ⟨rest, listed, cut⟩ := cutPoints_eq_cons found entryOk
  have sorted := pairwise_leaders stream first entry
  rw [listed, List.pairwise_cons] at sorted
  have later : rest.filter (· ≤ first) = [] := List.filter_eq_nil_iff.mpr fun c member => by
    have := sorted.1 c member
    simp only [decide_eq_true_eq]
    omega
  simp [blockAt, cut, later]

/-- The entry block is the block of the entry position, or of the first executable one. -/
theorem entry_assemble :
    (assemble stream first entry).entry = blockAt (cutPoints stream first entry) (entry.getD first) := by
  rw [assemble_entry]
  cases entry with
  | some pos => rfl
  | none => exact (blockAt_cutPoints_first found entryOk).symm

end Assembled

theorem lookup_labels_assemble {stream : List Instruction} {first : Nat} {entry : Option Nat}
    {label : Label} :
    (assemble stream first entry).labels.lookup label =
      ((firstMarkers stream).lookup label).map (blockAt (cutPoints stream first entry)) := by
  rw [assemble_labels, lookup_map_snd]

/-- A block whose terminal falls through has an edge to the next block, if there is one. -/
theorem step_of_fallThrough {stream : List Instruction} {first : Nat} {entry : Option Nat}
    {blk : Block} (member : blk ∈ (assemble stream first entry).blocks) {t : Instruction}
    (terminal : blk.terminal = some t)
    (fallsThrough : t.role = .condJump ∨ t.role.isJump = false ∧ t.role ≠ .ret)
    (next : blk.index + 1 < (assemble stream first entry).size) :
    (assemble stream first entry).Step blk.index (blk.index + 1) := by
  refine mem_successors_iff.mpr ⟨⟨blk.index, blk.index + 1, .fallThrough⟩, ?_, rfl, rfl⟩
  rw [assemble_edges, List.mem_flatMap]
  exact ⟨blk, member, mem_blockEdges.mpr ⟨t, terminal, rfl, .inr ⟨fallsThrough, next, rfl, rfl⟩⟩⟩

/-- A block whose terminal jumps to a label with a marker has an edge to the label's block. -/
theorem step_of_jump {stream : List Instruction} {first : Nat} {entry : Option Nat}
    {blk : Block} (member : blk ∈ (assemble stream first entry).blocks) {t : Instruction}
    (terminal : blk.terminal = some t) (isJump : t.role.isJump = true) {target : Nat}
    (resolved : t.jumpTarget.bind (List.lookup · (assemble stream first entry).labels) = some target) :
    (assemble stream first entry).Step blk.index target := by
  refine mem_successors_iff.mpr
    ⟨⟨blk.index, target, if t.role = .condJump then .branchTaken else .jump⟩, ?_, rfl, rfl⟩
  rw [assemble_edges, List.mem_flatMap]
  exact ⟨blk, member, mem_blockEdges.mpr ⟨t, terminal, rfl, .inl ⟨isJump, target, resolved, rfl, rfl⟩⟩⟩

end Graph

/-! ### Terminals -/

namespace Block

/-- **The terminal of a block is its last executed instruction.** -/
theorem terminal_eq_of_append {blk : Block} {pre post : List Instruction} {t : Instruction}
    (split : blk.instructions = pre ++ t :: post) (executed : t.role.isExecutable = true)
    (after : ∀ insn ∈ post, insn.role.isExecutable = false) : blk.terminal = some t := by
  have skipped : post.reverse.find? (·.role.isExecutable) = none :=
    List.find?_eq_none.mpr fun insn member => by simp [after insn (List.mem_reverse.mp member)]
  rw [terminal, split, List.reverse_append, List.reverse_cons, List.append_assoc,
    List.find?_append, skipped, Option.none_or]
  simp [executed]

theorem terminal_mem {blk : Block} {t : Instruction} (found : blk.terminal = some t) :
    t ∈ blk.instructions ∧ t.role.isExecutable = true := by
  have searched : blk.instructions.reverse.find? (·.role.isExecutable) = some t := found
  exact ⟨List.mem_reverse.mp (List.mem_of_find?_eq_some searched),
    by simpa using List.find?_some searched⟩

theorem terminal_eq_none {blk : Block} (found : blk.terminal = none) :
    ∀ insn ∈ blk.instructions, insn.role.isExecutable = false := by
  intro insn member
  simpa using List.find?_eq_none.mp found insn (List.mem_reverse.mpr member)

end Block

end Flowgraph
