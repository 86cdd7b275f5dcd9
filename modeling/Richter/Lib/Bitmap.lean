import Mathlib.Algebra.BigOperators.Group.List.Basic
import Mathlib.Algebra.GroupWithZero.Nat
import Mathlib.Data.List.GetD
import Mathlib.Data.Nat.Count
import Mathlib.Order.Interval.Finset.Nat

/-! Sets of numbers as lists of words: `i` is in the set when bit `i % w` of word `i / w` is one. -/

namespace Lib

abbrev Bitmap (w : Nat) := List (BitVec w)

namespace Bitmap

variable {w : Nat}

def bit (bm : Bitmap w) (i : Nat) : Bool := (bm.getD (i / w) 0#w).getLsbD (i % w)

/-- The bitmap with room for `n` words. -/
def grow (n : Nat) (bm : Bitmap w) : Bitmap w := bm ++ List.replicate (n - bm.length) 0#w

def set (bm : Bitmap w) (i : Nat) : Bitmap w := bm.modify (i / w) fun b => b ||| 1#w <<< (i % w)

/-- The number of ones in a word. -/
def ones (b : BitVec w) : Nat := (List.range w).countP b.getLsbD

def count (bm : Bitmap w) : Nat := (bm.map ones).sum

@[simp] theorem bit_nil (i : Nat) : bit ([] : Bitmap w) i = false := by simp [bit]

@[simp] theorem length_set (bm : Bitmap w) (i : Nat) : (bm.set i).length = bm.length := by
  simp [set]

theorem length_grow (n : Nat) (bm : Bitmap w) : n ≤ (bm.grow n).length := by
  rw [grow, List.length_append, List.length_replicate]
  omega

theorem length_le_length_grow (n : Nat) (bm : Bitmap w) : bm.length ≤ (bm.grow n).length := by
  rw [grow, List.length_append]
  omega

@[simp] theorem bit_grow (n : Nat) (bm : Bitmap w) (i : Nat) : (bm.grow n).bit i = bm.bit i := by
  unfold bit grow
  rcases Nat.lt_or_ge (i / w) bm.length with hIn | hOut
  · rw [List.getD_append _ _ _ _ hIn]
  · rw [List.getD_append_right _ _ _ _ hOut, List.getD_eq_default _ _ hOut]
    congr 1
    rw [List.getD_eq_getElem?_getD, List.getElem?_replicate]
    split <;> rfl

/-- Setting a bit sets it, and no other one. -/
theorem bit_set (hw : 0 < w) {bm : Bitmap w} {i : Nat} (hi : i / w < bm.length) (j : Nat) :
    (bm.set i).bit j = (bm.bit j || decide (j = i)) := by
  unfold bit set
  rw [List.getD_eq_getElem?_getD, List.getD_eq_getElem?_getD, List.getElem?_modify]
  by_cases hWord : i / w = j / w
  · have hj : j / w < bm.length := hWord ▸ hi
    have hBit : (j % w = i % w) ↔ j = i := by
      constructor
      · intro hMod
        rw [← Nat.div_add_mod j w, ← Nat.div_add_mod i w, hWord, hMod]
      · exact fun hEq => by rw [hEq]
    have hLow : j % w < w := Nat.mod_lt j hw
    rw [List.getElem?_eq_getElem hj]
    simp only [hWord, if_true, Option.map_eq_map, Option.map_some, Option.getD_some,
      BitVec.getLsbD_or, BitVec.getLsbD_shiftLeft, BitVec.getLsbD_one]
    congr 1
    by_cases hEq : j = i
    · subst hEq
      simp [hLow, hw]
    · have hNe : j % w ≠ i % w := fun h => hEq (hBit.mp h)
      simp only [hEq, decide_false, hLow, decide_true, Bool.true_and, Bool.and_eq_false_iff,
        Bool.not_eq_false', decide_eq_true_eq, hw]
      by_cases hBelow : j % w < i % w
      · exact .inl hBelow
      · exact .inr (decide_eq_false (by omega))
  · have hNe : j ≠ i := fun hEq => hWord (by rw [hEq])
    simp [hWord, hNe]

theorem ones_zero : ones (0#w) = 0 := by simp [ones]

/-- The ones of the first `k` words are the members below `w * k`. -/
theorem sum_take (hw : 0 < w) (bm : Bitmap w) (k : Nat) :
    ((bm.take k).map ones).sum = (List.range (w * k)).countP bm.bit := by
  induction k with
  | zero => simp
  | succ k ih =>
    have hWord : ((bm[k]?).toList.map ones).sum = ones (bm.getD k 0#w) := by
      rw [List.getD_eq_getElem?_getD]
      cases bm[k]? with
      | none => simp [ones_zero]
      | some b => simp
    have hBits : ((List.range w).map fun i => w * k + i).countP bm.bit =
        ones (bm.getD k 0#w) := by
      rw [List.countP_map, ones]
      refine List.countP_congr fun i hi => ?_
      have hLow : i < w := List.mem_range.mp hi
      rw [Function.comp_apply, bit, Nat.mul_add_div hw, Nat.div_eq_of_lt hLow, Nat.add_zero,
        Nat.mul_add_mod, Nat.mod_eq_of_lt hLow]
    rw [List.take_add_one, List.map_append, List.sum_append, ih, hWord, Nat.mul_succ,
      List.range_add, List.countP_append, hBits]

theorem count_eq (hw : 0 < w) (bm : Bitmap w) :
    bm.count = (List.range (w * bm.length)).countP bm.bit := by
  rw [← sum_take hw, List.take_length, count]

/-- No bit is set past the words. -/
theorem lt_of_bit (hw : 0 < w) {bm : Bitmap w} {i : Nat} (h : bm.bit i = true) :
    i < w * bm.length := by
  by_contra hOut
  have hWord : bm.length ≤ i / w :=
    (Nat.le_div_iff_mul_le hw).mpr (by rw [Nat.mul_comm]; omega)
  simp [bit, List.getElem?_eq_none hWord] at h

/-- The count as the size of the set. -/
theorem count_eq_card (hw : 0 < w) {bm : Bitmap w} {n : Nat} (hn : w * bm.length ≤ n) :
    bm.count = ((Finset.range n).filter fun i => bm.bit i = true).card := by
  have hFilter : ((Finset.range (w * bm.length)).filter fun i => bm.bit i = true) =
      (Finset.range n).filter fun i => bm.bit i = true := by
    ext i
    simp only [Finset.mem_filter, Finset.mem_range]
    constructor
    · exact fun h => ⟨by omega, h.2⟩
    · exact fun h => ⟨lt_of_bit hw h.2, h.2⟩
  rw [count_eq hw, ← hFilter, ← Nat.count_eq_card_filter_range]
  simp [Nat.count]

@[simp] theorem count_grow (n : Nat) (bm : Bitmap w) : (bm.grow n).count = bm.count := by
  simp [count, grow, ones_zero]

/-- A new bit counts one. -/
theorem count_set (hw : 0 < w) {bm : Bitmap w} {i : Nat} (hi : i / w < bm.length)
    (hNew : bm.bit i = false) : (bm.set i).count = bm.count + 1 := by
  have hInsert : ((Finset.range (w * bm.length)).filter fun j => (bm.set i).bit j = true) =
      insert i ((Finset.range (w * bm.length)).filter fun j => bm.bit j = true) := by
    ext j
    have hIn : i < w * bm.length := by
      rw [Nat.mul_comm]
      exact (Nat.div_lt_iff_lt_mul hw).mp hi
    simp only [Finset.mem_filter, Finset.mem_range, Finset.mem_insert, bit_set hw hi,
      Bool.or_eq_true, decide_eq_true_eq]
    constructor
    · exact fun h => h.2.elim (fun hOld => .inr ⟨h.1, hOld⟩) .inl
    · exact fun h => h.elim (fun hEq => ⟨hEq ▸ hIn, .inr hEq⟩) fun hOld => ⟨hOld.1, .inl hOld.2⟩
  rw [count_eq_card hw (n := w * bm.length) (by rw [length_set]), hInsert,
    Finset.card_insert_of_notMem (by simp [hNew]), ← count_eq_card hw (Nat.le_refl _)]

/-- The members of an interval, counted in any range that holds it. -/
theorem countP_range_of_interval {bm : Bitmap w} {lo hi n : Nat}
    (h : ∀ i, bm.bit i = true ↔ lo ≤ i ∧ i < hi) (hn : hi ≤ n) :
    (List.range n).countP bm.bit = hi - lo := by
  have hFilter : ((Finset.range n).filter fun i => bm.bit i = true) = Finset.Ico lo hi := by
    ext i
    simp only [Finset.mem_filter, Finset.mem_range, Finset.mem_Ico, h i]
    omega
  have hCount : (List.range n).countP bm.bit = Nat.count (fun i => bm.bit i = true) n := by
    simp [Nat.count]
  rw [hCount, Nat.count_eq_card_filter_range, hFilter, Nat.card_Ico]

/-- A set that is an interval counts its length. -/
theorem count_of_interval (hw : 0 < w) {bm : Bitmap w} {lo hi : Nat}
    (h : ∀ i, bm.bit i = true ↔ lo ≤ i ∧ i < hi) : bm.count = hi - lo := by
  rw [count_eq hw]
  rcases Nat.lt_or_ge lo hi with hSome | hNone
  · have hLast := lt_of_bit hw ((h (hi - 1)).mpr (by omega))
    exact countP_range_of_interval h (by omega)
  · rw [Nat.sub_eq_zero_of_le hNone, List.countP_eq_zero]
    intro i _ hBit
    have hIn := (h i).mp hBit
    omega

/-- A map that counts nothing has no bit. -/
theorem bit_of_count_eq_zero (hw : 0 < w) {bm : Bitmap w} (h : bm.count = 0) (i : Nat) :
    bm.bit i = false := by
  by_contra hBit
  rw [Bool.not_eq_false] at hBit
  rw [count_eq hw, List.countP_eq_zero] at h
  exact h i (List.mem_range.mpr (lt_of_bit hw hBit)) hBit

theorem getLsbD_mask (r i : Nat) :
    (BitVec.ofNat w (2 ^ r - 1)).getLsbD i = (decide (i < w) && decide (i < r)) := by
  rw [BitVec.getLsbD_ofNat, Nat.testBit_two_pow_sub_one]

/-- The ones below a place of a word. -/
theorem ones_and_mask (b : BitVec w) {r : Nat} (hr : r ≤ w) :
    ones (b &&& BitVec.ofNat w (2 ^ r - 1)) = (List.range r).countP b.getLsbD := by
  have hParts : List.range w = List.range r ++ (List.range (w - r)).map fun i => r + i := by
    rw [← List.range_add, Nat.add_sub_cancel' hr]
  have hLow : (List.range r).countP (b &&& BitVec.ofNat w (2 ^ r - 1)).getLsbD =
      (List.range r).countP b.getLsbD := by
    refine List.countP_congr fun i hi => ?_
    have hi : i < r := List.mem_range.mp hi
    rw [BitVec.getLsbD_and, getLsbD_mask, decide_eq_true hi,
      decide_eq_true (Nat.lt_of_lt_of_le hi hr), Bool.and_self, Bool.and_true]
  have hHigh : ((List.range (w - r)).map fun i => r + i).countP
      (b &&& BitVec.ofNat w (2 ^ r - 1)).getLsbD = 0 := by
    refine List.countP_eq_zero.mpr fun i hi => ?_
    obtain ⟨j, _, rfl⟩ := List.mem_map.mp hi
    have hNot : ¬ r + j < r := by omega
    rw [BitVec.getLsbD_and, getLsbD_mask, decide_eq_false hNot, Bool.and_false, Bool.and_false]
    exact Bool.false_ne_true
  rw [ones, hParts, List.countP_append, hLow, hHigh, Nat.add_zero]

/-- The members below `n`: those of the whole words, and those of a part of the next one. -/
theorem countP_range (hw : 0 < w) (bm : Bitmap w) (n : Nat) :
    (List.range n).countP bm.bit = ((bm.take (n / w)).map ones).sum +
      ones (bm.getD (n / w) 0#w &&& BitVec.ofNat w (2 ^ (n % w) - 1)) := by
  have hPart : ((List.range (n % w)).map fun i => w * (n / w) + i).countP bm.bit =
      (List.range (n % w)).countP (bm.getD (n / w) 0#w).getLsbD := by
    rw [List.countP_map]
    refine List.countP_congr fun i hi => ?_
    have hLow : i < w := Nat.lt_trans (List.mem_range.mp hi) (Nat.mod_lt n hw)
    rw [Function.comp_apply, bit, Nat.mul_add_div hw, Nat.div_eq_of_lt hLow, Nat.add_zero,
      Nat.mul_add_mod, Nat.mod_eq_of_lt hLow]
  rw [sum_take hw, ones_and_mask _ (Nat.le_of_lt (Nat.mod_lt n hw)), ← hPart, ← List.countP_append,
    ← List.range_add, Nat.div_add_mod]

end Bitmap

end Lib
