import Flowgraph.Proofs.Blocks

/-!
**The graph of a build follows execution.**

Execution steps between positions of a stream that hold no filler: a return goes nowhere, a
jump goes to the first marker of its label, a conditional jump goes there or on to the next
instruction that is not filler, and a plain instruction or a marker goes on to that next
instruction (`Flows`). The graph simulates execution when every step from the entry either
stays in its block or follows an edge into the first instruction of another (`Simulates`).

That needs two things of the blocks: no block executes an instruction after an unconditional
jump (`JumpsEndBlocks`), and only the last block may execute nothing (`EmptyBlocksLast`).

* `firstInBlock_assemble_iff`: the first instruction of a block that is not filler is a leader;
* `goesOnBefore_of_execution`: before a position that execution reaches, its block holds no
  jump and no return;
* `simulates_assemble`: with both conditions, every step from the entry stays in its block or
  follows an edge;
* `Simulates.exists_walk`: so every execution from the entry lies along a walk of the graph
  from the entry block, through exactly the blocks it visits;
* `graph_simulates_execution`: all of this for every built graph that meets both conditions,
  and neither condition can be dropped (`deadCode`, `labelOnlyBlock`).
-/

namespace Flowgraph

/-! ### Execution -/

/-- Position `q` holds the first instruction at or after position `pos` that is not filler. -/
def NextNonFiller (stream : List Instruction) (pos q : Nat) : Prop :=
  pos ≤ q ∧ ∃ h : q < stream.length, stream[q].isFiller = false ∧
    ∀ i (hi : i < stream.length), pos ≤ i → i < q → stream[i].isFiller = true

/-- Position `m` holds the first marker of `label`. -/
def FirstMarker (stream : List Instruction) (label : Label) (m : Nat) : Prop :=
  ∃ h : m < stream.length, stream[m].marks label = true ∧
    ∀ i (hi : i < stream.length), i < m → stream[i].marks label = false

instance (stream : List Instruction) (pos q : Nat) : Decidable (NextNonFiller stream pos q) :=
  inferInstanceAs (Decidable (_ ∧ _))

instance (stream : List Instruction) (label : Label) (m : Nat) :
    Decidable (FirstMarker stream label m) :=
  inferInstanceAs (Decidable (∃ _ : m < stream.length, _))

/-- One step of execution from position `p` of a stream. A jump, conditional or not, may go to
the first marker of its label; a conditional jump, a plain instruction and a marker may go on
to the next instruction that is not filler. A return goes nowhere, and filler never runs. -/
inductive Flows (stream : List Instruction) (p : Nat) : Nat → Prop
  | jump {label : Label} {m : Nat} (below : p < stream.length)
      (isJump : stream[p].role.isJump = true) (target : stream[p].target = some label)
      (marker : FirstMarker stream label m) : Flows stream p m
  | next {q : Nat} (below : p < stream.length)
      (goesOn : stream[p].role = .condJump ∨ stream[p].role = .plain ∨ stream[p].role = .label)
      (following : NextNonFiller stream (p + 1) q) : Flows stream p q

/-- Where execution enters a stream: its first instruction that is not filler, or the chosen
entry instruction. -/
def StartsAt (stream : List Instruction) : EntryPoint stream.length → Nat → Prop
  | .first, p => NextNonFiller stream 0 p
  | .at pos, p => p = pos
  | .outside _, _ => False

/-- `Execution stream start p trace`: `trace` lists the positions of a run of steps from `start`
to `p`, both included. -/
inductive Execution (stream : List Instruction) (start : Nat) : Nat → List Nat → Prop
  | start : Execution stream start start [start]
  | step {p q : Nat} {trace : List Nat} :
      Execution stream start p trace → Flows stream p q → Execution stream start q (trace ++ [q])

/-! ### Steps as the build sees them -/

section Steps

open Flowgraph.Graph

variable {stream : List Instruction}

theorem nextExecutable_eq_some_iff_next {pos q : Nat} :
    nextExecutable stream pos = some q ↔ NextNonFiller stream pos q :=
  nextExecutable_eq_some_iff

theorem lookup_firstMarkers_eq_some_iff {label : Label} {m : Nat} :
    (firstMarkers stream).lookup label = some m ↔ FirstMarker stream label m := by
  rw [lookup_firstMarkers, List.findIdx?_eq_some_iff_getElem]
  constructor
  · rintro ⟨h, marked, before⟩
    exact ⟨h, marked, fun i hi earlier => by simpa using before i earlier⟩
  · rintro ⟨h, marked, before⟩
    exact ⟨h, marked, fun i earlier => by simp [before i (by omega) earlier]⟩

theorem Flows.nonFiller {p q : Nat} (flows : Flows stream p q) : NonFiller stream q := by
  cases flows with
  | jump _ _ _ marker =>
    obtain ⟨h, marked, _⟩ := marker
    exact ⟨h, Instruction.isFiller_eq_false_of_marks marked⟩
  | next _ _ following =>
    obtain ⟨_, h, keep, _⟩ := following
    exact ⟨h, keep⟩

theorem Flows.lt_length {p q : Nat} (flows : Flows stream p q) : p < stream.length := by
  cases flows with
  | jump below => exact below
  | next below => exact below

/-- Only an instruction that is not filler takes a step. -/
theorem Flows.nonFiller_source {p q : Nat} (flows : Flows stream p q) : NonFiller stream p := by
  cases flows with
  | jump below isJump =>
    refine ⟨below, ?_⟩
    cases role : stream[p].role <;> simp_all [Instruction.isFiller, Role.isJump]
  | next below goesOn =>
    refine ⟨below, ?_⟩
    rcases goesOn with role | role | role <;> simp [Instruction.isFiller, role]

end Steps

namespace Graph

/-- Position `q` holds the first instruction of its block that is not filler: every earlier
position of its block holds filler. -/
def FirstInBlock (g : Graph) (q : Nat) : Prop :=
  ∀ i (hi : i < g.stream.length), i < q → g.blockOf i = g.blockOf q → g.stream[i].isFiller = true

/-- No block executes an instruction after an unconditional jump. -/
def JumpsEndBlocks (g : Graph) : Prop :=
  ∀ blk ∈ g.blocks,
    blk.instructions.Pairwise fun a b => a.role = .jump → b.role.isExecutable = false

/-- Only the last block may execute no instruction. -/
def EmptyBlocksLast (g : Graph) : Prop :=
  ∀ blk ∈ g.blocks, (∀ insn ∈ blk.instructions, insn.role.isExecutable = false) →
    blk.index + 1 = g.size

instance (g : Graph) (q : Nat) : Decidable (g.FirstInBlock q) :=
  inferInstanceAs (Decidable (∀ i (_ : i < g.stream.length), _))

instance (g : Graph) : Decidable g.JumpsEndBlocks :=
  inferInstanceAs (Decidable (∀ blk ∈ g.blocks, _))

instance (g : Graph) : Decidable g.EmptyBlocksLast :=
  inferInstanceAs (Decidable (∀ blk ∈ g.blocks, _))

/-- The graph follows execution from `start`: a step from a position that execution reaches
into the first instruction of a block follows an edge between the two blocks, and any other
step stays in its block. -/
def Simulates (g : Graph) (start : Nat) : Prop :=
  ∀ p q trace, Execution g.stream start p trace → Flows g.stream p q →
    ∃ bp bq, g.blockOf p = some bp ∧ g.blockOf q = some bq ∧
      (g.FirstInBlock q → g.Step bp bq) ∧ (¬ g.FirstInBlock q → bq = bp)

/-! ### Leaders are the first instructions of blocks -/

section Leaders

variable {stream : List Instruction} {first : Nat} {entry : Option Nat}
  (found : nextExecutable stream 0 = some first) (entryOk : ∀ pos ∈ entry, NonFiller stream pos)
include found entryOk

/-- Before a leader, its block holds only filler. -/
theorem filler_before_leader {q : Nat} (leads : q ∈ leaders stream first entry) {i : Nat}
    (hi : i < stream.length) (before : i < q)
    (inBlock : blockAt (cutPoints stream first entry) i = blockAt (cutPoints stream first entry) q) :
    stream[i].isFiller = true := by
  have low := first_le_of_nonFiller found (nonFiller_of_mem_leaders found entryOk leads)
  rcases Nat.eq_or_lt_of_le low with same | after
  · -- the first block: everything before the first executable position is filler
    obtain ⟨_, _, _, filler⟩ := nextExecutable_eq_some_iff.mp found
    exact filler i hi (Nat.zero_le i) (same ▸ before)
  · -- any later leader starts a block of its own
    have cut := (mem_cutPoints_iff_of_lt found entryOk after).mpr leads
    have := blockAt_lt_of_mem (zero_mem_cutPoints found entryOk) cut before (Nat.le_refl q)
    omega

/-- An instruction other than filler with only filler before it in its block is a leader. -/
theorem mem_leaders_of_filler_before {q : Nat} (nonFiller : NonFiller stream q)
    (filler : ∀ i (hi : i < stream.length), i < q →
      blockAt (cutPoints stream first entry) i = blockAt (cutPoints stream first entry) q →
        stream[i].isFiller = true) :
    q ∈ leaders stream first entry := by
  by_contra notLeader
  have firstLeads : first ∈ leaders stream first entry :=
    mem_leaders_iff.mpr ⟨lt_length_of_nextExecutable found, .inl rfl⟩
  have low := first_le_of_nonFiller found nonFiller
  -- the last leader up to `q` starts the block of `q`
  let last := Nat.findGreatest (· ∈ leaders stream first entry) q
  have lastLeads : last ∈ leaders stream first entry := Nat.findGreatest_spec low firstLeads
  have lastLow : first ≤ last := Nat.le_findGreatest low firstLeads
  have lastBefore : last < q := Nat.lt_of_le_of_ne (Nat.findGreatest_le q)
    fun same => notLeader (same ▸ lastLeads)
  have gap : ∀ c ∈ cutPoints stream first entry, last < c → q < c := by
    intro c cut after
    by_contra within
    have leads := (mem_cutPoints_iff_of_lt found entryOk (by omega)).mp cut
    exact Nat.findGreatest_is_greatest after (by omega) leads
  have lastNonFiller := nonFiller_of_mem_leaders found entryOk lastLeads
  exact lastNonFiller.isFiller_ne_true lastNonFiller.fst
    (filler last lastNonFiller.fst lastBefore (blockAt_eq_of_gap (Nat.le_of_lt lastBefore) gap))

/-- **The first instruction of a block that is not filler is a leader**, and every leader is
one. -/
theorem firstInBlock_assemble_iff {q : Nat} (nonFiller : NonFiller stream q) :
    (assemble stream first entry).FirstInBlock q ↔ q ∈ leaders stream first entry := by
  have ⟨below, _⟩ := nonFiller
  have sameBlock : ∀ i (hi : i < stream.length),
      (assemble stream first entry).blockOf i = (assemble stream first entry).blockOf q ↔
        blockAt (cutPoints stream first entry) i = blockAt (cutPoints stream first entry) q := by
    intro i hi
    rw [blockOf_assemble found entryOk hi, blockOf_assemble found entryOk below, Option.some_inj]
  constructor
  · intro filler
    refine mem_leaders_of_filler_before found entryOk nonFiller fun i hi before inBlock => ?_
    exact filler i hi before ((sameBlock i hi).mpr inBlock)
  · intro leads i hi before inBlock
    exact filler_before_leader found entryOk leads hi before ((sameBlock i hi).mp inBlock)

/-- A step to the next instruction that is not filler stays in its block, unless that
instruction is a leader, which starts the next block. -/
theorem blockAt_next {p q : Nat} (low : first ≤ p) (following : NextNonFiller stream (p + 1) q) :
    blockAt (cutPoints stream first entry) q = blockAt (cutPoints stream first entry) p +
      if q ∈ leaders stream first entry then 1 else 0 := by
  obtain ⟨after, _, _, filler⟩ := following
  have sorted := pairwise_cutPoints found entryOk
  -- the positions between hold filler, so no block starts there
  have gap : ∀ c ∈ cutPoints stream first entry, p < c → q ≤ c := by
    intro c cut later
    by_contra within
    have cutNonFiller := nonFiller_of_mem_cutPoints found entryOk cut (by omega)
    exact cutNonFiller.isFiller_ne_true cutNonFiller.fst
      (filler c cutNonFiller.fst (by omega) (by omega))
  rw [blockAt_succ (by omega) (sorted.imp Nat.ne_of_lt) (zero_mem_cutPoints found entryOk) gap]
  have sameCut : q ∈ cutPoints stream first entry ↔ q ∈ leaders stream first entry :=
    mem_cutPoints_iff_of_lt found entryOk (by omega)
  by_cases leads : q ∈ leaders stream first entry
  · rw [if_pos (sameCut.mpr leads), if_pos leads]
  · rw [if_neg (mt sameCut.mp leads), if_neg leads]

/-- Past an instruction whose next instruction that is not filler is a leader, if there is
one, the rest of its block is filler. -/
theorem filler_after {p : Nat} (low : first ≤ p)
    (nextLeads : ∀ q, nextExecutable stream (p + 1) = some q → q ∈ leaders stream first entry)
    {i : Nat} (hi : i < stream.length) (after : p < i)
    (inBlock : blockAt (cutPoints stream first entry) i = blockAt (cutPoints stream first entry) p) :
    stream[i].isFiller = true := by
  by_contra notFiller
  obtain ⟨q, following, upTo⟩ : ∃ q, nextExecutable stream (p + 1) = some q ∧ q ≤ i :=
    exists_nextExecutable_le after ⟨hi, by simpa using notFiller⟩
  -- that next instruction is a leader between `p` and `i`, so it starts a later block
  have beyond : p < q := (nextExecutable_eq_some_iff.mp following).1
  have cut := (mem_cutPoints_iff_of_lt found entryOk (Nat.lt_of_le_of_lt low beyond)).mpr
    (nextLeads q following)
  have past : blockAt (cutPoints stream first entry) p < blockAt (cutPoints stream first entry) i :=
    blockAt_lt_of_mem (zero_mem_cutPoints found entryOk) cut beyond upTo
  omega

end Leaders

/-! ### What execution reaches -/

/-- Before position `p` in its block, no instruction jumps or returns: each goes on to the
next. -/
def GoesOnBefore (stream : List Instruction) (starts : List Nat) (p : Nat) : Prop :=
  ∀ i (hi : i < stream.length), i < p → blockAt starts i = blockAt starts p →
    stream[i].role.isJump = false ∧ stream[i].role ≠ .ret

theorem goesOn_of_isFiller {insn : Instruction} (filler : insn.isFiller = true) :
    insn.role.isJump = false ∧ insn.role ≠ .ret := by
  simp only [Instruction.isFiller, decide_eq_true_eq] at filler
  simp [filler, Role.isJump]

theorem isExecutable_of_isFiller {insn : Instruction} (filler : insn.isFiller = true) :
    insn.role.isExecutable = false := by
  simp only [Instruction.isFiller, decide_eq_true_eq] at filler
  simp [filler, Role.isExecutable]

/-- A step into a position that is no leader goes on from a plain instruction or a marker:
jumps go to leaders, and so does a conditional jump that goes on. -/
theorem flows_of_not_leader {stream : List Instruction} {first : Nat} {entry : Option Nat}
    {p q : Nat} (flows : Flows stream p q) (notLeader : q ∉ leaders stream first entry) :
    ∃ h : p < stream.length, (stream[p].role = .plain ∨ stream[p].role = .label) ∧
      NextNonFiller stream (p + 1) q := by
  cases flows with
  | jump below isJump target marker =>
    exact absurd (mem_leaders_of_jump below isJump target
      (lookup_firstMarkers_eq_some_iff.mpr marker)) notLeader
  | next below goesOn following =>
    rcases goesOn with cond | plain | label
    · exact absurd (mem_leaders_of_condJump below cond
        (nextExecutable_eq_some_iff_next.mpr following)) notLeader
    · exact ⟨below, .inl plain, following⟩
    · exact ⟨below, .inr label, following⟩

section Reached

variable {stream : List Instruction} {first : Nat} {entry : Option Nat}
  (found : nextExecutable stream 0 = some first) (entryOk : ∀ pos ∈ entry, NonFiller stream pos)
include found entryOk

theorem goesOnBefore_of_leader {q : Nat} (leads : q ∈ leaders stream first entry) :
    GoesOnBefore stream (cutPoints stream first entry) q := fun _ hi before inBlock =>
  goesOn_of_isFiller (filler_before_leader found entryOk leads hi before inBlock)

/-- A step to a position that is no leader stays in its block. -/
theorem blockAt_flows_of_not_leader {p q : Nat} (flows : Flows stream p q)
    (notLeader : q ∉ leaders stream first entry) :
    blockAt (cutPoints stream first entry) q = blockAt (cutPoints stream first entry) p := by
  obtain ⟨_, _, following⟩ := flows_of_not_leader flows notLeader
  have low := first_le_of_nonFiller found flows.nonFiller_source
  rw [blockAt_next found entryOk low following, if_neg notLeader, Nat.add_zero]

/-- **One step keeps the invariant**: if nothing before `p` in its block jumps or returns, the
same holds before the position `p` steps to. -/
theorem GoesOnBefore.flows {p q : Nat} (before : GoesOnBefore stream (cutPoints stream first entry) p)
    (flows : Flows stream p q) : GoesOnBefore stream (cutPoints stream first entry) q := by
  by_cases leads : q ∈ leaders stream first entry
  · exact goesOnBefore_of_leader found entryOk leads
  -- a step to a position that is no leader goes on from `p` within its block
  obtain ⟨below, goesOn, following⟩ := flows_of_not_leader flows leads
  have same := blockAt_flows_of_not_leader found entryOk flows leads
  obtain ⟨_, _, _, filler⟩ := following
  intro i hi earlier inBlock
  rcases Nat.lt_trichotomy i p with lower | rfl | higher
  · exact before i hi lower (inBlock.trans same)
  · rcases goesOn with plain | label
    · simp [plain, Role.isJump]
    · simp [label, Role.isJump]
  · exact goesOn_of_isFiller (filler i hi higher earlier)

/-- **What execution reaches keeps the invariant**: from a leader, no run of steps reaches a
position with a jump or a return before it in its block. -/
theorem goesOnBefore_of_execution {start : Nat} (leads : start ∈ leaders stream first entry)
    {p : Nat} {trace : List Nat} (run : Execution stream start p trace) :
    GoesOnBefore stream (cutPoints stream first entry) p := by
  induction run with
  | start => exact goesOnBefore_of_leader found entryOk leads
  | step _ flows ih => exact ih.flows found entryOk flows

end Reached

theorem isExecutable_of_isJump {role : Role} (isJump : role.isJump = true) :
    role.isExecutable = true := by
  cases role <;> simp_all [Role.isJump, Role.isExecutable]

/-! ### The graph follows each step -/

section Follows

variable {stream : List Instruction} {first : Nat} {entry : Option Nat}
  (found : nextExecutable stream 0 = some first) (entryOk : ∀ pos ∈ entry, NonFiller stream pos)
include found entryOk

/-- The terminal of the block of `p` is the instruction at `p` when the rest of the block is
filler. -/
theorem terminal_of_filler_after {p : Nat} (below : p < stream.length)
    (executed : stream[p].role.isExecutable = true) (low : first ≤ p)
    (nextLeads : ∀ q, nextExecutable stream (p + 1) = some q → q ∈ leaders stream first entry)
    {blk : Block} (member : blk ∈ (assemble stream first entry).blocks)
    (index : blk.index = blockAt (cutPoints stream first entry) p) :
    blk.terminal = some stream[p] := by
  obtain ⟨pre, post, split, later⟩ :=
    instructions_eq_append_assemble found entryOk member below index.symm
  refine Block.terminal_eq_of_append split executed fun insn inPost => ?_
  obtain ⟨i, hi, after, inBlock, rfl⟩ := later insn inPost
  exact isExecutable_of_isFiller
    (filler_after found entryOk low nextLeads hi after (inBlock.trans index))

/-- **A jump follows an edge** to the block of its label's first marker: an unconditional jump
ends its block by the first condition, and a conditional one because a leader follows it. -/
theorem step_of_flows_jump (jumpsLast : (assemble stream first entry).JumpsEndBlocks) {p : Nat}
    (below : p < stream.length) (low : first ≤ p) (isJump : stream[p].role.isJump = true)
    {label : Label}
    {m : Nat} (target : stream[p].target = some label) (marker : FirstMarker stream label m) :
    (assemble stream first entry).Step (blockAt (cutPoints stream first entry) p)
      (blockAt (cutPoints stream first entry) m) := by
  obtain ⟨blk, member, index⟩ := exists_block_index found entryOk p
  have executed := isExecutable_of_isJump isJump
  have terminal : blk.terminal = some stream[p] := by
    have jumpOrCond : stream[p].role = .jump ∨ stream[p].role = .condJump := by
      cases role : stream[p].role <;> simp_all [Role.isJump]
    rcases jumpOrCond with uncond | cond
    · obtain ⟨pre, post, split, _⟩ :=
        instructions_eq_append_assemble found entryOk member below index.symm
      have ordered := jumpsLast blk member
      rw [split, List.pairwise_append, List.pairwise_cons] at ordered
      exact Block.terminal_eq_of_append split executed fun insn inPost =>
        ordered.2.1.1 insn inPost uncond
    · exact terminal_of_filler_after found entryOk below executed low
        (fun q following => mem_leaders_of_condJump below cond following) member index
  have resolved : stream[p].jumpTarget.bind (List.lookup · (assemble stream first entry).labels) =
      some (blockAt (cutPoints stream first entry) m) := by
    rw [Instruction.jumpTarget, if_pos isJump, target, Option.bind_some, lookup_labels_assemble,
      lookup_firstMarkers_eq_some_iff.mpr marker, Option.map_some]
  rw [← index]
  exact step_of_jump member terminal isJump resolved

/-- **A step on to a leader follows the fall-through edge** into the next block. Its block's
terminal is the instruction that steps, or, for a marker, the last instruction before it, which
goes on; a block that executes nothing is the last block, so it has no next block to step to. -/
theorem step_of_flows_next (emptyLast : (assemble stream first entry).EmptyBlocksLast) {p q : Nat}
    (before : GoesOnBefore stream (cutPoints stream first entry) p) (below : p < stream.length)
    (low : first ≤ p)
    (goesOn : stream[p].role = .condJump ∨ stream[p].role = .plain ∨ stream[p].role = .label)
    (following : NextNonFiller stream (p + 1) q) (leads : q ∈ leaders stream first entry) :
    (assemble stream first entry).Step (blockAt (cutPoints stream first entry) p)
      (blockAt (cutPoints stream first entry) q) := by
  obtain ⟨blk, member, index⟩ := exists_block_index found entryOk p
  have next := blockAt_next found entryOk low following
  rw [if_pos leads] at next
  have nextBelow : blk.index + 1 < (assemble stream first entry).size := by
    rw [index, ← next, size_assemble]
    exact blockAt_lt (cutPoints_ne_nil entry (lt_length_of_nextExecutable found)) q
  have nextLeads : ∀ q', nextExecutable stream (p + 1) = some q' →
      q' ∈ leaders stream first entry := by
    intro q' found'
    rw [nextExecutable_eq_some_iff_next.mpr following, Option.some_inj] at found'
    exact found' ▸ leads
  rw [next, ← index]
  -- an instruction that runs before a leader ends its block
  have endsBlock : stream[p].role.isExecutable = true → blk.terminal = some stream[p] :=
    fun executed => terminal_of_filler_after found entryOk below executed low nextLeads member index
  rcases goesOn with cond | plain | label
  · exact step_of_fallThrough member (endsBlock (by simp [cond, Role.isExecutable])) (.inl cond)
      nextBelow
  · exact step_of_fallThrough member (endsBlock (by simp [plain, Role.isExecutable]))
      (.inr ⟨by simp [plain, Role.isJump], by simp [plain]⟩) nextBelow
  · cases terminal : blk.terminal with
    | none =>
      have last := emptyLast blk member (Block.terminal_eq_none terminal)
      omega
    | some t =>
      obtain ⟨inBlock, executed⟩ := Block.terminal_mem terminal
      obtain ⟨i, hi, sameBlock, rfl⟩ :=
        (mem_instructions_assemble_iff found entryOk member).mp inBlock
      -- the terminal lies before the marker: neither the marker nor the filler after it runs
      rcases Nat.lt_trichotomy i p with lower | rfl | higher
      · exact step_of_fallThrough member terminal (.inr (before i hi lower (sameBlock.trans index)))
          nextBelow
      · simp [label, Role.isExecutable] at executed
      · have idle := isExecutable_of_isFiller
          (filler_after found entryOk low nextLeads hi higher (sameBlock.trans index))
        rw [idle] at executed
        exact absurd executed Bool.false_ne_true

/-- **The graph follows each step from a reached position**: a step into a leader follows an
edge, and any other step stays in its block. -/
theorem follows_flows (jumpsLast : (assemble stream first entry).JumpsEndBlocks)
    (emptyLast : (assemble stream first entry).EmptyBlocksLast) {p q : Nat}
    (before : GoesOnBefore stream (cutPoints stream first entry) p) (flows : Flows stream p q) :
    (q ∈ leaders stream first entry → (assemble stream first entry).Step
      (blockAt (cutPoints stream first entry) p) (blockAt (cutPoints stream first entry) q)) ∧
    (q ∉ leaders stream first entry →
      blockAt (cutPoints stream first entry) q = blockAt (cutPoints stream first entry) p) := by
  refine ⟨fun leads => ?_, blockAt_flows_of_not_leader found entryOk flows⟩
  have low := first_le_of_nonFiller found flows.nonFiller_source
  cases flows with
  | jump below isJump target marker =>
    exact step_of_flows_jump found entryOk jumpsLast below low isJump target marker
  | next below goesOn following =>
    exact step_of_flows_next found entryOk emptyLast before below low goesOn following leads

/-- **With both conditions, the graph simulates execution from any leader.** -/
theorem simulates_assemble (jumpsLast : (assemble stream first entry).JumpsEndBlocks)
    (emptyLast : (assemble stream first entry).EmptyBlocksLast) {start : Nat}
    (leads : start ∈ leaders stream first entry) : (assemble stream first entry).Simulates start := by
  intro p q trace run flows
  rw [assemble_stream] at run flows
  have before := goesOnBefore_of_execution found entryOk leads run
  obtain ⟨moves, stays⟩ := follows_flows found entryOk jumpsLast emptyLast before flows
  have firstIn := firstInBlock_assemble_iff found entryOk flows.nonFiller
  exact ⟨_, _, blockOf_assemble found entryOk flows.lt_length,
    blockOf_assemble found entryOk flows.nonFiller.fst, fun isFirst => moves (firstIn.mp isFirst),
    fun notFirst => stays (mt firstIn.mpr notFirst)⟩

end Follows

/-! ### Runs -/

/-- **Execution projects onto walks**: when the graph simulates execution, every run of steps
from the entry lies along a walk of the graph from the entry block, through exactly the blocks
of the positions it visits. -/
theorem Simulates.exists_walk {g : Graph} {start : Nat} (simulates : g.Simulates start)
    (startBlock : g.blockOf start = some g.entry) {p : Nat} {trace : List Nat}
    (run : Execution g.stream start p trace) :
    ∃ bp path, g.blockOf p = some bp ∧ g.Walk g.entry bp path ∧
      ∀ b, b ∈ path ↔ ∃ q ∈ trace, g.blockOf q = some b := by
  induction run with
  | start => exact ⟨g.entry, [g.entry], startBlock, .start, fun b => by simp [startBlock, eq_comm]⟩
  | @step p q trace earlier flows ih =>
    obtain ⟨bp, path, atP, walk, visits⟩ := ih
    obtain ⟨bp', bq, atP', atQ, moves, stays⟩ := simulates p q trace earlier flows
    obtain rfl : bp' = bp := Option.some_inj.mp (atP'.symm.trans atP)
    have visitsAll : ∀ b, (∃ x ∈ trace ++ [q], g.blockOf x = some b) ↔ b ∈ path ∨ b = bq := by
      intro b
      simp only [List.mem_append, List.mem_singleton, or_and_right, exists_or, exists_eq_left, atQ,
        Option.some_inj, ← visits]
      exact or_congr Iff.rfl eq_comm
    by_cases isFirst : g.FirstInBlock q
    · -- a step into the first instruction of a block extends the walk by an edge
      refine ⟨bq, path ++ [bq], atQ, walk.step (moves isFirst), fun b => ?_⟩
      rw [visitsAll, List.mem_append, List.mem_singleton]
    · -- any other step stays in the block the walk ends in
      obtain rfl := stays isFirst
      refine ⟨bq, path, atQ, walk, fun b => ?_⟩
      rw [visitsAll]
      exact ⟨.inl, fun inPath => inPath.elim id fun same => same ▸ walk.last_mem⟩

/-! ### Built graphs -/

/-- A build's entry position holds no filler, and execution starts there, or by default at the
first executable position. -/
theorem startsAt_of_entryPosition {stream : List Instruction} {entry : EntryPoint stream.length}
    {first : Nat} (found : nextExecutable stream 0 = some first) {entryPos : Option Nat}
    (entered : entryPosition stream entry = .ok entryPos) :
    (∀ pos ∈ entryPos, NonFiller stream pos) ∧ StartsAt stream entry (entryPos.getD first) := by
  match entry, entered with
  | .first, entered =>
    simp only [entryPosition, Except.ok.injEq] at entered
    subst entered
    exact ⟨fun _ absent => (Option.not_mem_none _ absent).elim,
      nextExecutable_eq_some_iff_next.mp found⟩
  | .at pos, entered =>
    simp only [entryPosition] at entered
    split at entered
    · cases entered
    · rename_i keep
      simp only [Except.ok.injEq] at entered
      subst entered
      refine ⟨fun p member => ?_, rfl⟩
      cases member
      exact ⟨pos.isLt, by simpa using keep⟩
  | .outside _, entered => cases entered

theorem mem_leaders_getD {stream : List Instruction} {first : Nat} {entry : Option Nat}
    (found : nextExecutable stream 0 = some first) (entryOk : ∀ pos ∈ entry, NonFiller stream pos) :
    entry.getD first ∈ leaders stream first entry := by
  cases entry with
  | none => exact mem_leaders_iff.mpr ⟨lt_length_of_nextExecutable found, .inl rfl⟩
  | some pos => exact mem_leaders_of_entry (entryOk pos rfl).fst rfl

/-- **A built graph simulates execution from its entry** when no block executes anything after
an unconditional jump and only the last block may execute nothing. -/
theorem simulates_of_build {stream : List Instruction} {entry : EntryPoint stream.length}
    {g : Graph} (built : build stream entry = .ok g) (jumpsLast : g.JumpsEndBlocks)
    (emptyLast : g.EmptyBlocksLast) :
    ∃ start, StartsAt stream entry start ∧ g.blockOf start = some g.entry ∧ g.Simulates start := by
  obtain ⟨first, entryPos, found, entered, rfl⟩ := build_eq_ok_iff.mp built
  obtain ⟨entryOk, starts⟩ := startsAt_of_entryPosition found entered
  have leads := mem_leaders_getD found entryOk
  refine ⟨entryPos.getD first, starts, ?_, simulates_assemble found entryOk jumpsLast emptyLast leads⟩
  rw [blockOf_assemble found entryOk (mem_leaders_iff.mp leads).1, entry_assemble found entryOk]

theorem stream_of_build {stream : List Instruction} {entry : EntryPoint stream.length}
    {g : Graph} (built : build stream entry = .ok g) : g.stream = stream := by
  obtain ⟨_, _, _, _, rfl⟩ := build_eq_ok_iff.mp built
  rfl

/-! ### Both conditions are needed -/

/-- A reached step into the first instruction of a block that follows no edge between the two
blocks breaks simulation. -/
theorem not_simulates {g : Graph} {start p q bp bq : Nat} {trace : List Nat}
    (run : Execution g.stream start p trace) (flows : Flows g.stream p q)
    (isFirst : g.FirstInBlock q) (atP : g.blockOf p = some bp) (atQ : g.blockOf q = some bq)
    (noEdge : ¬ g.Step bp bq) : ¬ g.Simulates start := by
  intro simulates
  obtain ⟨bp', bq', atP', atQ', moves, _⟩ := simulates p q trace run flows
  rw [atP, Option.some_inj] at atP'
  rw [atQ, Option.some_inj] at atQ'
  subst atP' atQ'
  exact noEdge (moves isFirst)

theorem eq_of_startsAt_first {stream : List Instruction} {start first : Nat}
    (starts : StartsAt stream .first start) (found : nextExecutable stream 0 = some first) :
    start = first := by
  have located := nextExecutable_eq_some_iff_next.mpr starts
  rw [found, Option.some_inj] at located
  exact located.symm

/-- A jump in the middle of a block: the block ends in a later jump, so the edge of the first
one is missing. -/
def deadCode : List Instruction :=
  [⟨"iload", [.integer 0], none, none⟩, ⟨"goto", [.name "DEAD"], none, some ⟨0, "DEAD"⟩⟩,
   ⟨"pop", [], none, none⟩, ⟨"goto", [.name "END"], none, some ⟨1, "END"⟩⟩, Instruction.marker ⟨0, "DEAD"⟩,
   ⟨"iconst_1", [], none, none⟩, ⟨"ireturn", [], none, none⟩, Instruction.marker ⟨1, "END"⟩,
   ⟨"return", [], none, none⟩]

/-- **Without the first condition the graph need not simulate execution**: the jump to `DEAD`
runs, but its block has no edge to the block of `DEAD`. -/
theorem deadCode_not_simulated :
    ∃ g, build deadCode .first = .ok g ∧ g.EmptyBlocksLast ∧ ¬ g.JumpsEndBlocks ∧
      ∀ start, StartsAt deadCode .first start → ¬ g.Simulates start := by
  refine ⟨assemble deadCode 0 none, rfl, by decide, by decide, fun start starts => ?_⟩
  obtain rfl := eq_of_startsAt_first starts (show nextExecutable deadCode 0 = some 0 by decide)
  have toGoto : Flows deadCode 0 1 := .next (by decide) (by decide) (by decide)
  have toDead : Flows deadCode 1 4 := .jump (by decide) (by decide) rfl (by decide)
  exact not_simulates (.step .start toGoto) toDead (by decide)
    (show (assemble deadCode 0 none).blockOf 1 = some 0 by decide)
    (show (assemble deadCode 0 none).blockOf 4 = some 1 by decide) (by decide)

/-- A block that holds only a marker, between a conditional jump to it and the block after. -/
def labelOnlyBlock : List Instruction :=
  [⟨"iload", [.integer 0], none, none⟩, ⟨"ifeq", [.name "A"], none, some ⟨2, "A"⟩⟩,
   ⟨"goto", [.name "B"], none, some ⟨3, "B"⟩⟩, Instruction.marker ⟨2, "A"⟩, Instruction.marker ⟨3, "B"⟩,
   ⟨"return", [], none, none⟩]

/-- **Without the second condition the graph need not simulate execution**: the marker `A`
goes on to the marker `B`, but the block of `A` executes nothing and has no edge. -/
theorem labelOnlyBlock_not_simulated :
    ∃ g, build labelOnlyBlock .first = .ok g ∧ g.JumpsEndBlocks ∧ ¬ g.EmptyBlocksLast ∧
      ∀ start, StartsAt labelOnlyBlock .first start → ¬ g.Simulates start := by
  refine ⟨assemble labelOnlyBlock 0 none, rfl, by decide, by decide, fun start starts => ?_⟩
  obtain rfl := eq_of_startsAt_first starts
    (show nextExecutable labelOnlyBlock 0 = some 0 by decide)
  have toBranch : Flows labelOnlyBlock 0 1 := .next (by decide) (by decide) (by decide)
  have toA : Flows labelOnlyBlock 1 3 := .jump (by decide) (by decide) rfl (by decide)
  have toB : Flows labelOnlyBlock 3 4 := .next (by decide) (by decide) (by decide)
  exact not_simulates (.step (.step .start toBranch) toA) toB (by decide)
    (show (assemble labelOnlyBlock 0 none).blockOf 3 = some 2 by decide)
    (show (assemble labelOnlyBlock 0 none).blockOf 4 = some 3 by decide) (by decide)

/-! ### The main statement -/

/-- **The graph of a build simulates execution**, when no block executes an instruction after
an unconditional jump and only the last block may execute nothing. Execution starts in the
entry block; every step from a position it reaches into the first instruction of a block
follows an edge between the two blocks, and every other step stays in its block. So every run
from the entry lies along a walk of the graph from the entry block, through exactly the blocks
it visits. Neither condition can be dropped: `deadCode` breaks the first and `labelOnlyBlock`
the second, each keeping the other, and in neither does the graph simulate execution. -/
theorem graph_simulates_execution {stream : List Instruction} {entry : EntryPoint stream.length}
    {g : Graph} (built : build stream entry = .ok g) (jumpsLast : g.JumpsEndBlocks)
    (emptyLast : g.EmptyBlocksLast) :
    (∃ start, StartsAt stream entry start ∧ g.blockOf start = some g.entry ∧ g.Simulates start ∧
      ∀ p trace, Execution stream start p trace → ∃ bp path, g.blockOf p = some bp ∧
        g.Walk g.entry bp path ∧ ∀ b, b ∈ path ↔ ∃ q ∈ trace, g.blockOf q = some b) ∧
    (∃ dead, build deadCode .first = .ok dead ∧ dead.EmptyBlocksLast ∧ ¬ dead.JumpsEndBlocks ∧
      ∀ start, StartsAt deadCode .first start → ¬ dead.Simulates start) ∧
    (∃ labelOnly, build labelOnlyBlock .first = .ok labelOnly ∧ labelOnly.JumpsEndBlocks ∧
      ¬ labelOnly.EmptyBlocksLast ∧
      ∀ start, StartsAt labelOnlyBlock .first start → ¬ labelOnly.Simulates start) := by
  obtain ⟨start, starts, startBlock, simulates⟩ := simulates_of_build built jumpsLast emptyLast
  refine ⟨⟨start, starts, startBlock, simulates, fun p trace run => ?_⟩, deadCode_not_simulated,
    labelOnlyBlock_not_simulated⟩
  rw [← stream_of_build built] at run
  exact simulates.exists_walk startBlock run

/-- A loop with filler: `iload 0`, then `LOOP: ifeq DONE`, `pop`, `goto LOOP`, and
`DONE: return`. -/
def countdown : List Instruction :=
  [⟨"line", [.integer 1], none, none⟩, ⟨"iload", [.integer 0], none, none⟩,
   Instruction.marker ⟨4, "LOOP"⟩, ⟨"ifeq", [.name "DONE"], none, some ⟨5, "DONE"⟩⟩,
   ⟨"line", [.integer 2], none, none⟩, ⟨"pop", [], none, none⟩,
   ⟨"goto", [.name "LOOP"], none, some ⟨4, "LOOP"⟩⟩, Instruction.marker ⟨5, "DONE"⟩,
   ⟨"return", [], none, none⟩]

theorem countdown_simulated :
    ∃ g, build countdown .first = .ok g ∧ g.JumpsEndBlocks ∧ g.EmptyBlocksLast ∧
      ((∃ start, StartsAt countdown .first start ∧ g.blockOf start = some g.entry ∧
        g.Simulates start ∧ ∀ p trace, Execution countdown start p trace →
          ∃ bp path, g.blockOf p = some bp ∧ g.Walk g.entry bp path ∧
            ∀ b, b ∈ path ↔ ∃ q ∈ trace, g.blockOf q = some b) ∧
      (∃ dead, build deadCode .first = .ok dead ∧ dead.EmptyBlocksLast ∧ ¬ dead.JumpsEndBlocks ∧
        ∀ start, StartsAt deadCode .first start → ¬ dead.Simulates start) ∧
      (∃ labelOnly, build labelOnlyBlock .first = .ok labelOnly ∧ labelOnly.JumpsEndBlocks ∧
        ¬ labelOnly.EmptyBlocksLast ∧
        ∀ start, StartsAt labelOnlyBlock .first start → ¬ labelOnly.Simulates start)) := by
  have built : build countdown .first = .ok (assemble countdown 1 none) := rfl
  have jumpsLast : (assemble countdown 1 none).JumpsEndBlocks := by decide
  have emptyLast : (assemble countdown 1 none).EmptyBlocksLast := by decide
  exact ⟨_, built, jumpsLast, emptyLast, graph_simulates_execution built jumpsLast emptyLast⟩

end Graph

end Flowgraph
