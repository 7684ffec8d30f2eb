import Flowgraph.Proofs.Blocks

/-!
**When building a graph fails.**

A build makes two checks before it cuts the stream: that some instruction is not filler, and
then that the entry, when one is given, is such an instruction of the stream. The first check
comes first, so a stream of filler only is an empty method whatever the entry is.

The partition pass that follows walks the stream and opens a block at each leader; an
instruction that is not filler and finds no block open would be an internal error. None is ever
met: the first instruction that is not filler is a leader, and no such instruction comes before
it.

* `nextExecutable_zero_eq_none_iff`: there is no first executable position exactly when the
  stream holds filler only;
* `entryPosition_cases`: the entry is found, or it misses the stream and the fault has the code of
  a missing entry;
* `blockOpenAt_leaders`: every instruction that is not filler has a leader at or before it that
  is not filler;
* `build_faults`: the three outcomes of a build and when each happens.
-/

namespace Flowgraph

/-- The entry is given and is no instruction of the stream that holds no filler: an instruction
outside the stream, or a filler one. -/
def EntryPoint.Misses {stream : List Instruction} (entry : EntryPoint stream.length) : Prop :=
  entry ≠ .first ∧ ¬ ∃ pos, entry = .at pos ∧ (stream.get pos).isFiller = false

namespace Graph

/-- When the partition pass meets position `pos`, a block is open: some leader at or before `pos`
holds no filler, and the pass opened a block there. An instruction that is not filler and finds
no block open stops the pass with an internal error. -/
def BlockOpenAt (stream : List Instruction) (leaders : List Nat) (pos : Nat) : Prop :=
  ∃ l ∈ leaders, l ≤ pos ∧ NonFiller stream l

variable {stream : List Instruction}

/-- **A stream has no executable instruction exactly when it holds filler only.** -/
theorem nextExecutable_zero_eq_none_iff :
    nextExecutable stream 0 = none ↔ ∀ insn ∈ stream, insn.isFiller = true := by
  constructor
  · intro none_found insn member
    obtain ⟨i, below, rfl⟩ := List.getElem_of_mem member
    by_contra executable
    obtain ⟨q, found, _⟩ :=
      exists_nextExecutable_le (Nat.zero_le i) ⟨below, by simpa using executable⟩
    rw [none_found] at found
    cases found
  · intro filler
    cases found : nextExecutable stream 0 with
    | none => rfl
    | some q =>
      obtain ⟨below, executable⟩ := nonFiller_of_nextExecutable found
      have := filler stream[q] (List.getElem_mem below)
      rw [executable] at this
      cases this

/-- **The entry is found, or it misses the stream.** A given entry that is filler or not in the
stream gives a fault with the code of a missing entry; any other entry gives a position, if any,
that holds no filler. -/
theorem entryPosition_cases (entry : EntryPoint stream.length) :
    (¬ entry.Misses ∧ ∃ entryPos, entryPosition stream entry = .ok entryPos ∧
        ∀ pos ∈ entryPos, NonFiller stream pos) ∨
      (entry.Misses ∧ ∃ fault, entryPosition stream entry = .error fault ∧
        fault.code = "CFG-1002") := by
  match entry with
  | .first =>
    refine .inl ⟨fun missing => missing.1 rfl, none, rfl, fun pos absent => ?_⟩
    cases absent
  | .at pos =>
    by_cases filler : (stream.get pos).isFiller = true
    · have atFiller : stream[pos.val].isFiller = true := filler
      refine .inr ⟨⟨nofun, ?_⟩, .entryIsFiller (stream.get pos).repr,
        by simp [entryPosition, atFiller], rfl⟩
      rintro ⟨other, same, executable⟩
      cases same
      rw [filler] at executable
      cases executable
    · have executable : (stream.get pos).isFiller = false := by simpa using filler
      have atExecutable : stream[pos.val].isFiller = false := executable
      refine .inl ⟨fun missing => missing.2 ⟨pos, rfl, executable⟩, some pos.val,
        by simp [entryPosition, atExecutable], ?_⟩
      intro p found
      cases found
      exact ⟨pos.isLt, executable⟩
  | .outside insn =>
    refine .inr ⟨⟨nofun, ?_⟩, _, rfl, rfl⟩
    rintro ⟨pos, same, _⟩
    cases same

/-- A build of a stream that has a first executable position checks the entry and assembles the
graph. -/
theorem build_of_nextExecutable {entry : EntryPoint stream.length} {first : Nat}
    (found : nextExecutable stream 0 = some first) :
    build stream entry = (entryPosition stream entry).map (assemble stream first) := by
  unfold build
  rw [found]
  cases entryPosition stream entry <;> rfl

theorem build_of_nextExecutable_eq_none {entry : EntryPoint stream.length}
    (none_found : nextExecutable stream 0 = none) : build stream entry = .error .emptyMethod := by
  unfold build
  rw [none_found]

/-- **No instruction comes before the first leader.** Every position that holds no filler has a
leader at or before it that holds no filler: the first executable position. -/
theorem blockOpenAt_leaders {first : Nat} (found : nextExecutable stream 0 = some first)
    (entry : Option Nat) {pos : Nat} (executable : NonFiller stream pos) :
    BlockOpenAt stream (leaders stream first entry) pos := by
  have leads : first ∈ leaders stream first entry :=
    mem_leaders_iff.mpr ⟨lt_length_of_nextExecutable found, .inl rfl⟩
  exact ⟨first, leads, first_le_of_nonFiller found executable, nonFiller_of_nextExecutable found⟩

/-- **The faults of a build.** Whatever the entry, a build fails as an empty method exactly when
the stream holds filler only. Otherwise it fails with the code of a missing entry exactly when the
entry is given and is no instruction of the stream that holds no filler; in every other case it
gives a graph, assembled from leaders among which the partition pass finds a block open at every
instruction that is not filler, so that it never stops with an internal error. -/
theorem build_faults (entry : EntryPoint stream.length) :
    (build stream entry = .error .emptyMethod ↔ ∀ insn ∈ stream, insn.isFiller = true) ∧
    ((∃ insn ∈ stream, insn.isFiller = false) →
      ((∃ fault, build stream entry = .error fault ∧ fault.code = "CFG-1002") ↔ entry.Misses) ∧
      (¬ entry.Misses → ∃ first entryPos, nextExecutable stream 0 = some first ∧
        entryPosition stream entry = .ok entryPos ∧
        build stream entry = .ok (assemble stream first entryPos) ∧
        ∀ pos, NonFiller stream pos → BlockOpenAt stream (leaders stream first entryPos) pos)) := by
  cases found : nextExecutable stream 0 with
  | none =>
    -- filler only: the build stops at its first check, and there is no executable instruction
    have filler := nextExecutable_zero_eq_none_iff.mp found
    refine ⟨iff_of_true (build_of_nextExecutable_eq_none found) filler, ?_⟩
    rintro ⟨insn, member, executable⟩
    rw [filler insn member] at executable
    cases executable
  | some first =>
    have notFiller : ¬ ∀ insn ∈ stream, insn.isFiller = true := by
      intro filler
      rw [nextExecutable_zero_eq_none_iff.mpr filler] at found
      cases found
    rw [build_of_nextExecutable found]
    rcases entryPosition_cases entry with ⟨given, entryPos, entered, _⟩ | ⟨missing, fault, failed, code⟩
    · -- the entry is found: the build gives the assembled graph
      rw [entered]
      refine ⟨iff_of_false (fun failed => by cases failed) notFiller, fun _ => ⟨?_, ?_⟩⟩
      · exact iff_of_false (fun ⟨_, failed, _⟩ => by cases failed) given
      · exact fun _ => ⟨first, entryPos, rfl, rfl, rfl, fun pos => blockOpenAt_leaders found entryPos⟩
    · -- the entry misses: the fault is that of the entry, not an empty method
      rw [failed]
      have other : fault ≠ .emptyMethod := by
        rintro rfl
        simp [Fault.code] at code
      refine ⟨iff_of_false (fun same => other (Except.error.inj same)) notFiller,
        fun _ => ⟨iff_of_true ⟨fault, rfl, code⟩ missing, fun given => absurd missing given⟩⟩

end Graph

end Flowgraph
