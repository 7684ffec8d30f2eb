import Mathlib.Logic.Relation
import Mathlib.Data.Set.Function
import Flowgraph.Graph.Basic

/-!
**Paths and reachability in a control-flow graph.**

A step goes from a block to one of its successors; a walk lists the blocks of a run of steps,
both ends included; a block reaches another when a run of steps joins them. A graph is well
formed when its entry block and both ends of every edge are among its blocks.

* `mem_predecessors_iff`: `p` is a predecessor of `b` exactly when `b` is a successor of `p`, so
  the predecessor lists mirror the successor lists;
* `exists_walk_of_reaches`, `Walk.reaches`: a block reaches another exactly when a walk joins
  them;
* `Walk.reaches_of_mem`: every block of a walk from `a` is reachable from `a`.

Walks grow at their end, since the dominator equations look back from a block to its
predecessors.
-/

namespace Flowgraph

namespace Graph

/-! ### Successors and predecessors -/

/-- Block `b` follows block `a`: an edge goes from `a` to `b`. -/
def Step (g : Graph) (a b : Nat) : Prop := b ∈ g.successors a

instance (g : Graph) (a b : Nat) : Decidable (g.Step a b) :=
  inferInstanceAs (Decidable (b ∈ g.successors a))

theorem mem_successors_iff {g : Graph} {a b : Nat} :
    b ∈ g.successors a ↔ ∃ e ∈ g.edges, e.source = a ∧ e.target = b := by
  simp [successors, and_assoc]

theorem mem_foldl_dedup {x : Nat} (l seen : List Nat) :
    x ∈ l.foldl (fun seen y => if seen.contains y then seen else seen ++ [y]) seen ↔
      x ∈ seen ∨ x ∈ l := by
  induction l generalizing seen with
  | nil => simp
  | cons y rest ih =>
    rw [List.foldl_cons, ih]
    by_cases old : seen.contains y = true
    · have member : y ∈ seen := by simpa using old
      rw [if_pos old, List.mem_cons]
      constructor
      · rintro (inSeen | inRest)
        · exact .inl inSeen
        · exact .inr (.inr inRest)
      · rintro (inSeen | rfl | inRest)
        · exact .inl inSeen
        · exact .inl member
        · exact .inr inRest
    · rw [if_neg old]
      simp [or_assoc]

@[simp] theorem mem_dedup {x : Nat} {l : List Nat} : x ∈ dedup l ↔ x ∈ l := by
  rw [dedup, mem_foldl_dedup]
  simp

theorem nodup_foldl_dedup (l seen : List Nat) (distinct : seen.Nodup) :
    (l.foldl (fun seen y => if seen.contains y then seen else seen ++ [y]) seen).Nodup := by
  induction l generalizing seen with
  | nil => exact distinct
  | cons y rest ih =>
    rw [List.foldl_cons]
    apply ih
    by_cases old : seen.contains y = true
    · rw [if_pos old]
      exact distinct
    · rw [if_neg old]
      have fresh : y ∉ seen := by simpa using old
      exact List.nodup_append.mpr ⟨distinct, by simp,
        fun a inSeen b inNew same => fresh (by simp_all)⟩

theorem nodup_dedup (l : List Nat) : (dedup l).Nodup :=
  nodup_foldl_dedup l [] List.nodup_nil

theorem foldl_dedup_eq_append (l seen : List Nat) :
    ∃ kept, kept.Sublist l ∧
      l.foldl (fun seen y => if seen.contains y then seen else seen ++ [y]) seen = seen ++ kept := by
  induction l generalizing seen with
  | nil => exact ⟨[], List.Sublist.slnil, by simp⟩
  | cons y rest ih =>
    rw [List.foldl_cons]
    by_cases old : seen.contains y = true
    · rw [if_pos old]
      obtain ⟨kept, sub, result⟩ := ih seen
      exact ⟨kept, sub.cons y, result⟩
    · rw [if_neg old]
      obtain ⟨kept, sub, result⟩ := ih (seen ++ [y])
      exact ⟨y :: kept, sub.cons_cons y, by rw [result, List.append_assoc, List.singleton_append]⟩

/-- Removing repeats keeps the first occurrences in their order. -/
theorem dedup_sublist (l : List Nat) : (dedup l).Sublist l := by
  obtain ⟨kept, sub, result⟩ := foldl_dedup_eq_append l []
  rw [dedup, result, List.nil_append]
  exact sub

theorem find?_foldl_dedup (p : Nat → Bool) (l seen : List Nat) :
    (l.foldl (fun seen y => if seen.contains y then seen else seen ++ [y]) seen).find? p =
      (seen ++ l).find? p := by
  induction l generalizing seen with
  | nil => simp
  | cons y rest ih =>
    rw [List.foldl_cons]
    by_cases old : seen.contains y = true
    · rw [if_pos old, ih, List.find?_append, List.find?_append, List.find?_cons]
      -- a repeat of a member of `seen` passes only if an earlier member already did
      cases found : seen.find? p with
      | some x => rfl
      | none =>
        have fails : p y = false := by
          simpa using List.find?_eq_none.mp found y (by simpa using old)
        simp [fails]
    · rw [if_neg old, ih, List.append_assoc, List.singleton_append]

/-- Removing repeats keeps the first element that passes any test. -/
theorem find?_dedup (p : Nat → Bool) (l : List Nat) : (dedup l).find? p = l.find? p := by
  rw [dedup, find?_foldl_dedup, List.nil_append]

/-- The image of `y` is among the images of a list exactly when `y` is in it, for a map one to
one on the list and `y`. -/
theorem contains_map_of_injOn {f : Nat → Nat} {l : List Nat} {y : Nat}
    (injective : Set.InjOn f {x | x ∈ y :: l}) : (l.map f).contains (f y) = l.contains y := by
  apply Bool.eq_iff_iff.mpr
  simp only [List.contains_iff_mem, List.mem_map]
  constructor
  · rintro ⟨x, member, same⟩
    rwa [injective (List.mem_cons_of_mem y member) List.mem_cons_self same] at member
  · intro member
    exact ⟨y, member, rfl⟩

theorem foldl_dedup_map {f : Nat → Nat} (l seen : List Nat)
    (injective : Set.InjOn f {x | x ∈ seen ++ l}) :
    (l.map f).foldl (fun seen y => if seen.contains y then seen else seen ++ [y]) (seen.map f) =
      (l.foldl (fun seen y => if seen.contains y then seen else seen ++ [y]) seen).map f := by
  induction l generalizing seen with
  | nil => rfl
  | cons y rest ih =>
    rw [List.map_cons, List.foldl_cons, List.foldl_cons,
      contains_map_of_injOn (injective.mono fun x member => by simp at member ⊢; tauto)]
    by_cases old : seen.contains y = true
    · rw [if_pos old, if_pos old]
      exact ih seen (injective.mono fun x member => by simp at member ⊢; tauto)
    · rw [if_neg old, if_neg old, ← List.map_singleton, ← List.map_append]
      exact ih (seen ++ [y]) (by simpa using injective)

/-- Removing repeats commutes with a map that is one to one on the list. -/
theorem dedup_map {f : Nat → Nat} {l : List Nat} (injective : Set.InjOn f {x | x ∈ l}) :
    dedup (l.map f) = (dedup l).map f := by
  rw [dedup, dedup, ← foldl_dedup_map l [] (by simpa using injective)]
  rfl

/-- **The predecessor lists mirror the successor lists.** -/
theorem mem_predecessors_iff {g : Graph} {p b : Nat} : p ∈ g.predecessors b ↔ g.Step p b := by
  simp only [predecessors, mem_dedup, Step, mem_successors_iff, List.mem_map, List.mem_filter,
    decide_eq_true_eq]
  constructor
  · rintro ⟨e, ⟨member, target⟩, source⟩
    exact ⟨e, member, source, target⟩
  · rintro ⟨e, member, source, target⟩
    exact ⟨e, ⟨member, target⟩, source⟩

/-! ### Walks and reachability -/

/-- `g.Walk a b path`: `path` lists the blocks of a run of steps from `a` to `b`, both ends
included. -/
inductive Walk (g : Graph) (a : Nat) : Nat → List Nat → Prop
  | start : Walk g a a [a]
  | step {p b : Nat} {path : List Nat} : Walk g a p path → g.Step p b → Walk g a b (path ++ [b])

/-- Block `a` reaches block `b` by zero or more steps. -/
def Reaches (g : Graph) (a b : Nat) : Prop := Relation.ReflTransGen g.Step a b

namespace Walk

variable {g : Graph} {a b : Nat} {path : List Nat}

theorem head_mem (walk : g.Walk a b path) : a ∈ path := by
  induction walk with
  | start => exact List.mem_singleton_self a
  | step _ _ ih => exact List.mem_append_left _ ih

theorem last_mem (walk : g.Walk a b path) : b ∈ path := by
  cases walk with
  | start => exact List.mem_singleton_self a
  | step _ _ => exact List.mem_append_right _ (List.mem_singleton_self b)

theorem reaches (walk : g.Walk a b path) : g.Reaches a b := by
  induction walk with
  | start => exact Relation.ReflTransGen.refl
  | step _ step ih => exact ih.tail step

/-- Every block of a walk from `a` is reachable from `a`. -/
theorem reaches_of_mem (walk : g.Walk a b path) {x : Nat} (member : x ∈ path) :
    g.Reaches a x := by
  induction walk with
  | start =>
    rw [List.mem_singleton.mp member]
    exact Relation.ReflTransGen.refl
  | step earlier step ih =>
    rcases List.mem_append.mp member with inEarlier | inLast
    · exact ih inEarlier
    · rw [List.mem_singleton.mp inLast]
      exact (earlier.reaches).tail step

end Walk

theorem exists_walk_of_reaches {g : Graph} {a b : Nat} (reach : g.Reaches a b) :
    ∃ path, g.Walk a b path := by
  induction reach with
  | refl => exact ⟨[a], .start⟩
  | tail _ step ih =>
    obtain ⟨path, walk⟩ := ih
    exact ⟨_, walk.step step⟩

/-- A block reached from another one, and different from it, is reached through a predecessor. -/
theorem exists_step_of_reaches {g : Graph} {a b : Nat} (reach : g.Reaches a b) (other : b ≠ a) :
    ∃ p, g.Reaches a p ∧ g.Step p b := by
  rcases Relation.ReflTransGen.cases_tail reach with same | through
  · exact absurd same other
  · exact through

/-! ### Well-formed graphs -/

/-- The entry block and both ends of every edge are blocks of the graph. -/
structure WellFormed (g : Graph) : Prop where
  entry_lt : g.entry < g.size
  source_lt : ∀ e ∈ g.edges, e.source < g.size
  target_lt : ∀ e ∈ g.edges, e.target < g.size

namespace WellFormed

variable {g : Graph}

theorem step_lt (wf : g.WellFormed) {a b : Nat} (step : g.Step a b) : a < g.size ∧ b < g.size := by
  obtain ⟨e, member, rfl, rfl⟩ := mem_successors_iff.mp step
  exact ⟨wf.source_lt e member, wf.target_lt e member⟩

theorem reaches_lt (wf : g.WellFormed) {a b : Nat} (start : a < g.size) (reach : g.Reaches a b) :
    b < g.size := by
  induction reach with
  | refl => exact start
  | tail _ step _ => exact (wf.step_lt step).2

end WellFormed

end Graph

end Flowgraph
