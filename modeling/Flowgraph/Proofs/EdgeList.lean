import Mathlib
import Flowgraph.Proofs.Isomorphism
import Flowgraph.Proofs.Dominance.Order
import Flowgraph.Proofs.Simulation

/-!
**The edge list names the reachable part of a graph up to isomorphism.**

The edge list has one line per block reachable from the entry, in pre-order: the block's id,
which is its place in the pre-order, then the distinct ids of its successors in order, each after
a blank.

* `ids_eq_of_line_eq`: a line gives back the ids on it, since ids are written in decimal digits
  and no digit is a blank;
* `successorIdsIn_idTable`: the ids on the line of a reachable block are its successors, repeats
  removed, each by its place in the pre-order;
* `edgeList_eq_of_isomorphism`: isomorphic graphs have the same pre-order, block by block
  (`Isomorphism.preorder_eq_map`), and so the same lines;
* `isomorphism_of_edgeList_eq`: graphs with the same edge list are isomorphic, through the map
  that sends the `k`-th block of one pre-order to the `k`-th block of the other;
* `edgeList_eq_iff_isomorphism`: so two well-formed graphs have the same edge list exactly when
  their reachable parts are isomorphic. Block indices, unreachable blocks and repeated
  successors never show in the edge list.
-/

namespace Flowgraph

namespace Graph

/-! ### Reading a line back -/

/-- The characters of the ids on a line, each after a blank. -/
theorem toList_join_ids (ids : List Nat) :
    (String.join (ids.map fun s => " " ++ toString s)).toList =
      ids.flatMap fun s => ' ' :: Nat.toDigits 10 s := by
  rw [String.toList_join, List.flatMap_map]
  apply List.flatMap_congr
  intro s _
  rw [String.toList_append]
  exact congrArg (' ' :: ·) Nat.toList_repr

theorem blank_not_mem_toDigits (n : Nat) : ' ' ∉ Nat.toDigits 10 n := fun member =>
  absurd (Nat.isDigit_of_mem_toDigits (by decide) (by decide) member) (by decide)

/-- The ids on a line, each after a blank, start with a blank or are empty. -/
theorem head_flatMap_digits (ids : List Nat) :
    ∀ c ∈ (ids.flatMap fun s => ' ' :: Nat.toDigits 10 s).head?, c = ' ' := by
  intro c member
  cases ids with
  | nil => simp at member
  | cons s rest => simpa [eq_comm] using member

/-- Two texts, each running up to a blank or to its end, followed by texts that each start with
a blank or are empty, split only one way. -/
theorem append_eq_append_of_blank {u v x y : List Char} (blankU : ' ' ∉ u) (blankV : ' ' ∉ v)
    (startX : ∀ c ∈ x.head?, c = ' ') (startY : ∀ c ∈ y.head?, c = ' ')
    (same : u ++ x = v ++ y) : u = v ∧ x = y := by
  induction u generalizing v with
  | nil =>
    cases v with
    | nil => exact ⟨rfl, same⟩
    | cons d rest =>
      -- `x` would start with `d`, a character of `v`, which is no blank
      rw [List.nil_append] at same
      subst same
      have first : d = ' ' := startX d (by simp)
      exact absurd (first ▸ List.mem_cons_self) blankV
  | cons c rest ih =>
    cases v with
    | nil =>
      rw [List.nil_append] at same
      subst same
      have first : c = ' ' := startY c (by simp)
      exact absurd (first ▸ List.mem_cons_self) blankU
    | cons d others =>
      simp only [List.cons_append, List.cons.injEq] at same
      obtain ⟨rfl, tails⟩ := same
      obtain ⟨sameRest, sameTail⟩ := ih (fun member => blankU (List.mem_cons_of_mem c member))
        (fun member => blankV (List.mem_cons_of_mem c member)) tails
      exact ⟨congrArg (c :: ·) sameRest, sameTail⟩

/-- A list of ids, each written in decimal after a blank, gives the ids back. -/
theorem eq_of_flatMap_digits_eq {a b : List Nat}
    (same : (a.flatMap fun s => ' ' :: Nat.toDigits 10 s) =
      b.flatMap fun s => ' ' :: Nat.toDigits 10 s) : a = b := by
  induction a generalizing b with
  | nil =>
    cases b with
    | nil => rfl
    | cons t others => simp at same
  | cons s rest ih =>
    cases b with
    | nil => simp at same
    | cons t others =>
      simp only [List.flatMap_cons, List.cons_append, List.cons.injEq, true_and] at same
      obtain ⟨digits, tails⟩ := append_eq_append_of_blank (blank_not_mem_toDigits s)
        (blank_not_mem_toDigits t) (head_flatMap_digits rest) (head_flatMap_digits others) same
      have sameId : s = t := by
        apply Nat.repr_injective
        rw [← String.toList_inj, Nat.toList_repr, Nat.toList_repr, digits]
      rw [sameId, ih tails]

/-- **A line of the edge list gives back the ids on it.** -/
theorem ids_eq_of_line_eq {k : Nat} {a b : List Nat}
    (same : toString k ++ " =>" ++ String.join (a.map fun s => " " ++ toString s) =
      toString k ++ " =>" ++ String.join (b.map fun s => " " ++ toString s)) : a = b := by
  have joined := congrArg String.toList ((String.append_right_inj _).mp same)
  rw [toList_join_ids, toList_join_ids] at joined
  exact eq_of_flatMap_digits_eq joined

/-! ### The ids on a line -/

/-- In a list mapped by a map one to one on it, the image of a member sits where the member
did. -/
theorem idxOf_map_of_injOn {φ : Nat → Nat} {l : List Nat} (injective : Set.InjOn φ {x | x ∈ l})
    {x : Nat} (member : x ∈ l) : (l.map φ).idxOf (φ x) = l.idxOf x := by
  induction l with
  | nil => exact absurd member List.not_mem_nil
  | cons a rest ih =>
    by_cases same : a = x
    · subst same
      simp
    · have imageDiffers : φ a ≠ φ x := fun equal =>
        same (injective List.mem_cons_self member equal)
      rw [List.map_cons, List.idxOf_cons_ne _ imageDiffers, List.idxOf_cons_ne _ same,
        ih (injective.mono fun y later => List.mem_cons_of_mem a later)
          ((List.mem_cons.mp member).resolve_left (Ne.symm same))]

/-- **The ids on the line of a reachable block** are its successors, repeats removed, each by
its place in the pre-order. -/
theorem successorIdsIn_idTable {g : Graph} (wf : g.WellFormed) {b : Nat}
    (reach : g.Reaches g.entry b) :
    g.successorIdsIn g.idTable b = (dedup (g.successors b)).map g.preorder.idxOf := by
  have listed : ∀ s ∈ g.successors b, s ∈ g.preorder := fun s successor =>
    (mem_preorder_iff wf).mpr (reach.tail successor)
  have ids : (g.successors b).filterMap (fun s => g.idTable.getD s none) =
      (g.successors b).map g.preorder.idxOf := by
    rw [← List.filterMap_eq_map]
    exact List.filterMap_congr fun s successor => by
      rw [getD_idTable wf, if_pos (listed s successor)]
      rfl
  rw [successorIdsIn, ids, dedup_map fun x memberX y _ same =>
    (List.idxOf_inj (listed x memberX)).mp same]

/-! ### Equal edge lists and isomorphic graphs -/

section TwoGraphs

variable {g₁ g₂ : Graph} (wf₁ : g₁.WellFormed) (wf₂ : g₂.WellFormed)
include wf₁ wf₂

/-- **Isomorphic graphs have the same edge list.** -/
theorem edgeList_eq_of_isomorphism {φ : Nat → Nat} (iso : Isomorphism g₁ g₂ φ) :
    g₁.edgeList = g₂.edgeList := by
  have order := iso.preorder_eq_map wf₁ wf₂
  have injective : Set.InjOn φ {x | x ∈ g₁.preorder} :=
    iso.bijOn.injOn.mono fun x member => (mem_preorder_iff wf₁).mp member
  -- the image of a block of the pre-order has the block's id
  have sameId : ∀ x ∈ g₁.preorder, g₂.preorder.idxOf (φ x) = g₁.preorder.idxOf x :=
    fun x member => by
      rw [order]
      exact idxOf_map_of_injOn injective member
  simp only [edgeList]
  rw [order, List.zipIdx_map, List.map_map]
  apply List.map_congr_left
  rintro ⟨b, k⟩ member
  have reach : g₁.Reaches g₁.entry b :=
    (mem_preorder_iff wf₁).mp (List.fst_mem_of_mem_zipIdx member)
  have successorIds : g₂.successorIdsIn g₂.idTable (φ b) = g₁.successorIdsIn g₁.idTable b := by
    rw [successorIdsIn_idTable wf₂ (iso.bijOn.mapsTo reach), successorIdsIn_idTable wf₁ reach,
      iso.map_successors b reach, List.map_map]
    apply List.map_congr_left
    intro s successor
    exact sameId s ((mem_preorder_iff wf₁).mpr (reach.tail (mem_dedup.mp successor)))
  simp only [Function.comp_apply, Prod.map_apply, id_eq]
  rw [successorIds]

/-- **Graphs with the same edge list are isomorphic**, through the map that sends the `k`-th
block of the pre-order of one to the `k`-th block of the pre-order of the other. -/
theorem isomorphism_of_edgeList_eq (same : g₁.edgeList = g₂.edgeList) :
    Isomorphism g₁ g₂ fun x => g₂.preorder.getD (g₁.preorder.idxOf x) 0 := by
  have lengths : g₁.preorder.length = g₂.preorder.length := by
    simpa [edgeList] using congrArg List.length same
  -- line `k` of both lists: the ids of the successors of the `k`-th blocks agree
  have lines : ∀ k (h₁ : k < g₁.preorder.length) (h₂ : k < g₂.preorder.length),
      g₁.successorIdsIn g₁.idTable g₁.preorder[k] =
        g₂.successorIdsIn g₂.idTable g₂.preorder[k] := by
    intro k h₁ h₂
    have atK := congrArg (·[k]?) same
    simp only [edgeList, List.getElem?_map, List.getElem?_zipIdx, List.getElem?_eq_getElem h₁,
      List.getElem?_eq_getElem h₂, Option.map_some, Option.some_inj, Nat.zero_add] at atK
    exact ids_eq_of_line_eq atK
  have image : ∀ k (h₁ : k < g₁.preorder.length) (h₂ : k < g₂.preorder.length),
      g₂.preorder.getD (g₁.preorder.idxOf g₁.preorder[k]) 0 = g₂.preorder[k] := by
    intro k h₁ h₂
    rw [(nodup_preorder g₁).idxOf_getElem k h₁, List.getD_eq_getElem _ _ h₂]
  have reach₂ : ∀ k (h₂ : k < g₂.preorder.length), g₂.Reaches g₂.entry g₂.preorder[k] :=
    fun k h₂ => (mem_preorder_iff wf₂).mp (List.getElem_mem h₂)
  refine ⟨⟨?_, ?_, ?_⟩, ?_, ?_⟩
  · -- reachable blocks go to reachable blocks
    intro x reach
    obtain ⟨k, h₁, rfl⟩ := List.getElem_of_mem ((mem_preorder_iff wf₁).mpr reach)
    have h₂ : k < g₂.preorder.length := lengths ▸ h₁
    simp only [Set.mem_ofPred_eq]
    rw [image k h₁ h₂]
    exact reach₂ k h₂
  · -- distinct places in one pre-order are distinct places in the other
    intro x reachX y reachY equal
    obtain ⟨i, hi₁, rfl⟩ := List.getElem_of_mem ((mem_preorder_iff wf₁).mpr reachX)
    obtain ⟨j, hj₁, rfl⟩ := List.getElem_of_mem ((mem_preorder_iff wf₁).mpr reachY)
    have hi₂ : i < g₂.preorder.length := lengths ▸ hi₁
    have hj₂ : j < g₂.preorder.length := lengths ▸ hj₁
    simp only [image i hi₁ hi₂, image j hj₁ hj₂] at equal
    obtain rfl := (nodup_preorder g₂).getElem_inj_iff.mp equal
    rfl
  · -- every reachable block of the second graph has a place in the pre-order of the first
    intro y reach
    obtain ⟨k, h₂, rfl⟩ := List.getElem_of_mem ((mem_preorder_iff wf₂).mpr reach)
    have h₁ : k < g₁.preorder.length := lengths ▸ h₂
    exact ⟨g₁.preorder[k], (mem_preorder_iff wf₁).mp (List.getElem_mem h₁), image k h₁ h₂⟩
  · -- both pre-orders start with the entry block
    obtain ⟨rest₁, listed₁⟩ := preorder_eq_cons wf₁
    obtain ⟨rest₂, listed₂⟩ := preorder_eq_cons wf₂
    show g₂.preorder.getD (g₁.preorder.idxOf g₁.entry) 0 = g₂.entry
    rw [listed₁, listed₂, List.idxOf_cons_self]
    rfl
  · intro b reach
    obtain ⟨k, h₁, rfl⟩ := List.getElem_of_mem ((mem_preorder_iff wf₁).mpr reach)
    have h₂ : k < g₂.preorder.length := lengths ▸ h₁
    have ids := lines k h₁ h₂
    rw [successorIdsIn_idTable wf₁ reach, successorIdsIn_idTable wf₂ (reach₂ k h₂)] at ids
    -- reading the ids back in the second pre-order gives the successors of the `k`-th block
    have back := congrArg (List.map fun i => g₂.preorder.getD i 0) ids
    rw [List.map_map, List.map_map] at back
    have readBack : (dedup (g₂.successors g₂.preorder[k])).map
        ((fun i => g₂.preorder.getD i 0) ∘ g₂.preorder.idxOf) =
          dedup (g₂.successors g₂.preorder[k]) := by
      conv_rhs => rw [← List.map_id (dedup (g₂.successors g₂.preorder[k]))]
      apply List.map_congr_left
      intro s successor
      have listed : s ∈ g₂.preorder :=
        (mem_preorder_iff wf₂).mpr ((reach₂ k h₂).tail (mem_dedup.mp successor))
      rw [Function.comp_apply, List.getD_eq_getElem _ _ (List.idxOf_lt_length_iff.mpr listed),
        List.getElem_idxOf, id_eq]
    calc dedup (g₂.successors (g₂.preorder.getD (g₁.preorder.idxOf g₁.preorder[k]) 0))
        = dedup (g₂.successors g₂.preorder[k]) := by rw [image k h₁ h₂]
      _ = (dedup (g₂.successors g₂.preorder[k])).map
            ((fun i => g₂.preorder.getD i 0) ∘ g₂.preorder.idxOf) := readBack.symm
      _ = (dedup (g₁.successors g₁.preorder[k])).map
            ((fun i => g₂.preorder.getD i 0) ∘ g₁.preorder.idxOf) := back.symm
      _ = (dedup (g₁.successors g₁.preorder[k])).map
            fun x => g₂.preorder.getD (g₁.preorder.idxOf x) 0 := rfl

/-- **Two well-formed graphs have the same edge list exactly when their reachable parts are
isomorphic** as rooted graphs with ordered successor lists, repeats removed. -/
theorem edgeList_eq_iff_isomorphism :
    g₁.edgeList = g₂.edgeList ↔ ∃ φ, Isomorphism g₁ g₂ φ := by
  constructor
  · intro same
    exact ⟨_, isomorphism_of_edgeList_eq wf₁ wf₂ same⟩
  · rintro ⟨φ, iso⟩
    exact edgeList_eq_of_isomorphism wf₁ wf₂ iso

end TwoGraphs

/-- Two loops of the same shape: `countdown`, and `loopWithDeadCycle`, whose dead block shifts the
index of its exit block. -/
theorem edgeList_eq_iff_isomorphism_of_countdown :
    ∃ g₁ g₂, build countdown .first = .ok g₁ ∧ build loopWithDeadCycle .first = .ok g₂ ∧
      g₁.WellFormed ∧ g₂.WellFormed ∧
      (g₁.edgeList = g₂.edgeList ↔ ∃ φ, Isomorphism g₁ g₂ φ) := by
  obtain ⟨g₁, built₁⟩ : ∃ g, build countdown .first = .ok g := ⟨_, rfl⟩
  obtain ⟨g₂, built₂⟩ : ∃ g, build loopWithDeadCycle .first = .ok g := ⟨_, rfl⟩
  have wf₁ := wellFormed_of_build built₁
  have wf₂ := wellFormed_of_build built₂
  exact ⟨g₁, g₂, built₁, built₂, wf₁, wf₂, edgeList_eq_iff_isomorphism wf₁ wf₂⟩

end Graph

end Flowgraph
