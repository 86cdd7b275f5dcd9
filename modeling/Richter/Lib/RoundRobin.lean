import Mathlib.Algebra.BigOperators.Group.List.Basic
import Mathlib.Algebra.BigOperators.Group.Finset.Basic
import Mathlib.Algebra.Order.Floor.Div
import Mathlib.Data.List.Basic
import Mathlib.Tactic.Ring

/-! A number of things dealt out over the entries of a list in turn, and counted by entry. -/

namespace Lib

universe u

variable {α : Type u}

/-- The first `n` entries when the list is gone through over and over. -/
def cycle (l : List α) (n : Nat) : List α := (List.range n).filterMap fun i => l[i % l.length]?

section Cycle

variable {l : List α} (hl : l ≠ [])
include hl

theorem cycle_eq_map (n : Nat) : cycle l n =
    (List.range n).map fun i =>
      l.get ⟨i % l.length, Nat.mod_lt i (List.length_pos_iff.mpr hl)⟩ := by
  rw [cycle, ← List.filterMap_eq_map]
  refine List.filterMap_congr fun i _ => ?_
  exact List.getElem?_eq_getElem (Nat.mod_lt i (List.length_pos_iff.mpr hl))

theorem length_cycle (n : Nat) : (cycle l n).length = n := by
  rw [cycle_eq_map hl, List.length_map, List.length_range]

/-- Less than a round gives the first entries. -/
theorem cycle_of_le {n : Nat} (h : n ≤ l.length) : cycle l n = l.take n := by
  apply List.ext_getElem
  · rw [length_cycle hl, List.length_take]
    omega
  · intro i hi _
    have hLow : i < l.length := by
      rw [length_cycle hl] at hi
      omega
    simp [cycle_eq_map hl, Nat.mod_eq_of_lt hLow]

/-- One round gives every entry once. -/
theorem cycle_length_add (n : Nat) : cycle l (l.length + n) = l ++ cycle l n := by
  have hRound : cycle l l.length = l := by
    rw [cycle_of_le hl (Nat.le_refl _), List.take_length]
  have hRest : ((List.range n).map fun i => l.length + i).filterMap
      (fun i => l[i % l.length]?) = cycle l n := by
    rw [List.filterMap_map]
    refine List.filterMap_congr fun i _ => ?_
    rw [Function.comp_apply, Nat.add_mod_left]
  calc cycle l (l.length + n)
      = cycle l l.length ++ ((List.range n).map fun i => l.length + i).filterMap
          (fun i => l[i % l.length]?) := by rw [cycle, List.range_add, List.filterMap_append, cycle]
    _ = l ++ cycle l n := by rw [hRound, hRest]

/-- The whole rounds, and what is left of the last one. -/
theorem count_cycle [DecidableEq α] (n : Nat) (a : α) : (cycle l n).count a =
    l.count a * (n / l.length) + (l.take (n % l.length)).count a := by
  have hPos : 0 < l.length := List.length_pos_iff.mpr hl
  have hRounds : ∀ q r, r < l.length →
      (cycle l (l.length * q + r)).count a = l.count a * q + (l.take r).count a := by
    intro q r hr
    induction q with
    | zero =>
      rw [Nat.mul_zero, Nat.zero_add, cycle_of_le hl (Nat.le_of_lt hr), Nat.mul_zero, Nat.zero_add]
    | succ q ih =>
      have hFirst : l.length * (q + 1) + r = l.length + (l.length * q + r) := by
        rw [Nat.mul_succ]
        omega
      rw [hFirst, cycle_length_add hl, List.count_append, ih, Nat.mul_succ]
      omega
  rw [← hRounds _ _ (Nat.mod_lt n hPos), Nat.div_add_mod]

/-- An entry that the list has `k` times gets `k` shares of the rounds, up to a round that is
begun. -/
theorem count_cycle_between [DecidableEq α] (n : Nat) (a : α) :
    l.count a * (n / l.length) ≤ (cycle l n).count a ∧
      (cycle l n).count a ≤ l.count a * (n ⌈/⌉ l.length) := by
  have hPos : 0 < l.length := List.length_pos_iff.mpr hl
  rw [count_cycle hl]
  refine ⟨Nat.le_add_right _ _, ?_⟩
  have hTake : (l.take (n % l.length)).count a ≤ l.count a := (List.take_sublist _ _).count_le a
  rcases Nat.eq_zero_or_pos (n % l.length) with hWhole | hPart
  · have hCeil : n / l.length ≤ n ⌈/⌉ l.length := by
      rw [Nat.ceilDiv_eq_add_pred_div]
      exact Nat.div_le_div_right (by omega)
    rw [hWhole, List.take_zero, List.count_nil, Nat.add_zero]
    exact Nat.mul_le_mul_left _ hCeil
  · have hCeil : n ⌈/⌉ l.length = n / l.length + 1 := by
      have hSplit := Nat.div_add_mod n l.length
      have hLow := Nat.mod_lt n hPos
      have hOne : (n / l.length + 1) * l.length = l.length * (n / l.length) + l.length := by ring
      have hTwo : (n / l.length + 1 + 1) * l.length =
          l.length * (n / l.length) + l.length + l.length := by ring
      rw [Nat.ceilDiv_eq_add_pred_div]
      exact Nat.div_eq_of_lt_le (by omega) (by omega)
    rw [hCeil, Nat.mul_succ]
    exact Nat.add_le_add_left hTake _

end Cycle

theorem mem_of_mem_cycle {l : List α} {n : Nat} {a : α} (h : a ∈ cycle l n) : a ∈ l := by
  obtain ⟨i, _, hi⟩ := List.mem_filterMap.mp h
  exact List.mem_of_getElem? hi

/-- The entries of a list at their first places, without those of `seen`. -/
def distinct [DecidableEq α] (seen : List α) : List α → List α
  | [] => []
  | a :: l => if a ∈ seen then distinct seen l else a :: distinct (a :: seen) l

section Distinct

variable [DecidableEq α]

theorem mem_distinct {seen l : List α} {a : α} : a ∈ distinct seen l ↔ a ∈ l ∧ a ∉ seen := by
  induction l generalizing seen with
  | nil => simp [distinct]
  | cons b l ih =>
    rw [distinct]
    by_cases hb : b ∈ seen
    · rw [if_pos hb, ih, List.mem_cons]
      constructor
      · exact fun h => ⟨.inr h.1, h.2⟩
      · rintro ⟨rfl | hMem, hNew⟩
        · exact absurd hb hNew
        · exact ⟨hMem, hNew⟩
    · rw [if_neg hb, List.mem_cons, ih, List.mem_cons, List.mem_cons]
      by_cases hEq : a = b
      · subst hEq
        simp [hb]
      · simp [hEq]

theorem nodup_distinct (seen l : List α) : (distinct seen l).Nodup := by
  induction l generalizing seen with
  | nil => exact List.nodup_nil
  | cons b l ih =>
    rw [distinct]
    split
    · exact ih seen
    · refine List.nodup_cons.mpr ⟨fun h => ?_, ih _⟩
      exact (mem_distinct.mp h).2 List.mem_cons_self

/-- They stand in the order of their first places. -/
theorem distinct_sorted (seen l : List α) :
    (distinct seen l).Pairwise fun a b => l.idxOf a < l.idxOf b := by
  induction l generalizing seen with
  | nil => exact List.Pairwise.nil
  | cons c l ih =>
    have hBehind : ∀ seen : List α, c ∈ seen →
        (distinct seen l).Pairwise fun a b => (c :: l).idxOf a < (c :: l).idxOf b := by
      intro seen hc
      refine (ih seen).imp_of_mem fun {a b} ha hb hLt => ?_
      have hca : c ≠ a := fun h => (mem_distinct.mp ha).2 (h ▸ hc)
      have hcb : c ≠ b := fun h => (mem_distinct.mp hb).2 (h ▸ hc)
      rw [List.idxOf_cons_ne l hca, List.idxOf_cons_ne l hcb]
      exact Nat.succ_lt_succ hLt
    rw [distinct]
    split
    · next hc => exact hBehind seen hc
    · refine List.pairwise_cons.mpr ⟨fun b hb => ?_, hBehind _ List.mem_cons_self⟩
      have hcb : c ≠ b := fun h => (mem_distinct.mp hb).2 (h ▸ List.mem_cons_self)
      rw [List.idxOf_cons_self, List.idxOf_cons_ne l hcb]
      exact Nat.succ_pos _

/-- Counted by distinct entries, nothing is lost. -/
theorem sum_count_distinct {l xs : List α} (h : ∀ x ∈ xs, x ∈ l) :
    ((distinct [] l).map xs.count).sum = xs.length := by
  have hAll : ∀ x ∈ (xs : Multiset α), x ∈ (distinct [] l).toFinset := fun x hx =>
    List.mem_toFinset.mpr (mem_distinct.mpr ⟨h x (Multiset.mem_coe.mp hx), List.not_mem_nil⟩)
  have hSum := Multiset.sum_count_eq_card hAll
  rw [List.sum_toFinset _ (nodup_distinct [] l)] at hSum
  simpa using hSum

end Distinct

end Lib
