import Mathlib.Data.Rat.Floor
import Mathlib.Algebra.Order.Field.Basic
import Richter.Lib.Bitmap

/-! The seconds of a lesson's video that a student has watched (`internal/kv/watch_coverage.go`).
Seconds and rates are exact rationals. -/

namespace Richter.Kv

open Lib

/-- The two records of a student and a lesson: the bitmap of the watched seconds, which is empty
when it is missing, and the time of the first report. -/
structure WatchCoverage where
  bitmap : Bitmap 8 := []
  firstSeenMs : Option Int := none
  deriving DecidableEq

/-- The errors of `AddWatchCoverage`, which are only logged. -/
inductive CoverageError
  | order (fromSec toSec : ℚ)
  | negative (fromSec : ℚ)
  | exceeds (fromSec toSec : ℚ) (durationSec : Int)

/-- Marks `n` seconds from `i` on. -/
def setBits (i : Nat) : Nat → Bitmap 8 → Bitmap 8
  | 0, bm => bm
  | n + 1, bm => setBits (i + 1) n (if bm.bit i then bm else bm.set i)

/-- Marks `n` seconds from `i` on while there is a budget for new ones. -/
def setBitsWithin (i : Nat) : Nat → Int → Bitmap 8 → Bitmap 8
  | 0, _, bm => bm
  | n + 1, budget, bm =>
    if 0 < budget then
      if bm.bit i then setBitsWithin (i + 1) n budget bm
      else setBitsWithin (i + 1) n (budget - 1) (bm.set i)
    else bm

/-- The conversion of a `float64` to an `int`. -/
def truncate (x : ℚ) : Int := if 0 ≤ x then ⌊x⌋ else ⌈x⌉

/-- The number of seconds that may be marked at `nowUnixMs`. -/
def allowedTotal (nowUnixMs firstSeenMs : Int) (maxRate : ℚ) (initialGraceSeconds : Int) : ℚ :=
  initialGraceSeconds +
    maxRate * (if 0 < nowUnixMs - firstSeenMs then ((nowUnixMs - firstSeenMs : Int) : ℚ) / 1000
      else 0)

/-- The transaction of `AddWatchCoverage`, for the seconds from `lo` up to `hi`. -/
def markWatched (lo hi : Nat) (nowUnixMs : Int) (maxRate : ℚ) (initialGraceSeconds : Int)
    (c : WatchCoverage) : WatchCoverage :=
  let bm := c.bitmap.grow ((hi + 7) / 8)
  if maxRate ≤ 0 then { c with bitmap := setBits lo (hi - lo) bm }
  else
    let firstSeenMs := c.firstSeenMs.getD nowUnixMs
    let budget := truncate (allowedTotal nowUnixMs firstSeenMs maxRate initialGraceSeconds) -
      bm.count
    { bitmap := setBitsWithin lo (hi - lo) budget bm
      firstSeenMs := some firstSeenMs }

/-- `AddWatchCoverage`. -/
def addWatchCoverage (fromSec toSec : ℚ) (durationSec nowUnixMs : Int) (maxRate : ℚ)
    (initialGraceSeconds : Int) (c : WatchCoverage) : Except CoverageError WatchCoverage :=
  if ¬ fromSec < toSec then .error (.order fromSec toSec)
  else if fromSec < 0 then .error (.negative fromSec)
  else if 0 < durationSec && durationSec < toSec - fromSec then
    .error (.exceeds fromSec toSec durationSec)
  else
    let lo := ⌊fromSec⌋.toNat
    let hi := (if 0 < durationSec then min ⌈toSec⌉ durationSec else ⌈toSec⌉).toNat
    if hi ≤ lo then .ok c
    else .ok (markWatched lo hi nowUnixMs maxRate initialGraceSeconds c)

/-- The loop over the whole bytes and the masked rest of `WatchCoverageFraction`. -/
def watchedBelow (durationSec : Nat) (bm : Bitmap 8) : Nat :=
  let fullBytes := min (durationSec / 8) bm.length
  ((bm.take fullBytes).map Bitmap.ones).sum +
    if durationSec % 8 ≠ 0 ∧ fullBytes < bm.length then
      Bitmap.ones (bm.getD fullBytes 0#8 &&& BitVec.ofNat 8 (2 ^ (durationSec % 8) - 1))
    else 0

/-- `WatchCoverageFraction`. -/
def watchCoverageFraction (durationSec : Int) (bm : Bitmap 8) : ℚ :=
  if durationSec ≤ 0 then -1
  else if bm = [] then 0
  else
    let frac : ℚ := watchedBelow durationSec.toNat bm / durationSec
    if frac < 0 then 0 else if 1 < frac then 1 else frac

section Marking

variable {bm : Bitmap 8}

/-- The marks of a loop that looks at the seconds one by one. -/
theorem bit_setBits {i n : Nat} (h : i + n ≤ 8 * bm.length) (j : Nat) :
    (setBits i n bm).bit j = (bm.bit j || decide (i ≤ j ∧ j < i + n)) := by
  induction n generalizing i bm with
  | zero =>
    have hNone : ¬ (i ≤ j ∧ j < i + 0) := by omega
    rw [setBits, decide_eq_false hNone, Bool.or_false]
  | succ n ih =>
    have hParts : decide (i ≤ j ∧ j < i + (n + 1)) =
        (decide (j = i) || decide (i + 1 ≤ j ∧ j < i + 1 + n)) := by
      rw [← Bool.decide_or]
      exact decide_eq_decide.mpr (by omega)
    rw [setBits, hParts]
    split
    · next hSet =>
      rw [ih (by omega)]
      by_cases hj : j = i
      · subst hj
        simp [hSet]
      · simp [hj]
    · have hLength : i + 1 + n ≤ 8 * (bm.set i).length := by
        rw [Bitmap.length_set]
        omega
      rw [ih hLength, Bitmap.bit_set (by decide) (by omega), Bool.or_assoc]

/-- A budget only leaves marks out. -/
theorem of_bit_setBitsWithin {i n : Nat} {budget : Int} (h : i + n ≤ 8 * bm.length) {j : Nat}
    (hBit : (setBitsWithin i n budget bm).bit j = true) :
    bm.bit j = true ∨ i ≤ j ∧ j < i + n := by
  induction n generalizing i budget bm with
  | zero => exact .inl hBit
  | succ n ih =>
    unfold setBitsWithin at hBit
    split at hBit
    · split at hBit
      · rcases ih (by omega) hBit with hOld | hNew
        · exact .inl hOld
        · exact .inr (by omega)
      · have hLength : i + 1 + n ≤ 8 * (bm.set i).length := by
          rw [Bitmap.length_set]
          omega
        rcases ih hLength hBit with hOld | hNew
        · rw [Bitmap.bit_set (by decide) (by omega), Bool.or_eq_true, decide_eq_true_eq] at hOld
          rcases hOld with hOld | rfl
          · exact .inl hOld
          · exact .inr (by omega)
        · exact .inr (by omega)
    · exact .inl hBit

end Marking

/-- The report covers a part of the second from `i` to `i + 1`. -/
def Reports (fromSec toSec : ℚ) (i : Nat) : Prop := fromSec < i + 1 ∧ i < toSec

instance (fromSec toSec : ℚ) (i : Nat) : Decidable (Reports fromSec toSec i) :=
  inferInstanceAs (Decidable (_ ∧ _))

theorem of_bit_markWatched {lo hi : Nat} {nowUnixMs : Int} {maxRate : ℚ}
    {initialGraceSeconds : Int} {c : WatchCoverage} {j : Nat} (hLe : lo ≤ hi)
    (hBit : (markWatched lo hi nowUnixMs maxRate initialGraceSeconds c).bitmap.bit j = true) :
    c.bitmap.bit j = true ∨ lo ≤ j ∧ j < hi := by
  have hRoom : lo + (hi - lo) ≤ 8 * (c.bitmap.grow ((hi + 7) / 8)).length := by
    have hWords := Bitmap.length_grow ((hi + 7) / 8) c.bitmap
    omega
  unfold markWatched at hBit
  dsimp only at hBit
  split at hBit
  · rw [bit_setBits hRoom, Bitmap.bit_grow, Bool.or_eq_true, decide_eq_true_eq] at hBit
    rcases hBit with hOld | hNew
    · exact .inl hOld
    · exact .inr (by omega)
  · rcases of_bit_setBitsWithin hRoom hBit with hOld | hNew
    · rw [Bitmap.bit_grow] at hOld
      exact .inl hOld
    · exact .inr (by omega)

/-- A report only marks seconds that it covers a part of. -/
theorem of_bit_addWatchCoverage {fromSec toSec : ℚ} {durationSec nowUnixMs : Int} {maxRate : ℚ}
    {initialGraceSeconds : Int} {c c' : WatchCoverage}
    (h : addWatchCoverage fromSec toSec durationSec nowUnixMs maxRate initialGraceSeconds c =
      .ok c') {j : Nat} (hBit : c'.bitmap.bit j = true) :
    c.bitmap.bit j = true ∨ Reports fromSec toSec j := by
  unfold addWatchCoverage at h
  dsimp only at h
  generalize hHi : (if 0 < durationSec then min ⌈toSec⌉ durationSec else ⌈toSec⌉).toNat = hi at h
  split at h
  · cases h
  · split at h
    · cases h
    · split at h
      · cases h
      · split at h
        · cases h
          exact .inl hBit
        · next hLt =>
          cases h
          rcases of_bit_markWatched (by omega) hBit with hOld | ⟨hLow, hHigh⟩
          · exact .inl hOld
          · have hFloor : ⌊fromSec⌋ < (j : Int) + 1 := by omega
            have hCeil : (j : Int) < ⌈toSec⌉ := by
              split at hHi <;> omega
            refine .inr ⟨?_, ?_⟩
            · exact_mod_cast Int.floor_lt.mp hFloor
            · exact_mod_cast Int.lt_ceil.mp hCeil

section Fraction

/-- The loop counts the marked seconds below the duration. -/
theorem watchedBelow_eq (durationSec : Nat) (bm : Bitmap 8) :
    watchedBelow durationSec bm = (List.range durationSec).countP bm.bit := by
  rw [Bitmap.countP_range (by decide)]
  unfold watchedBelow
  dsimp only
  rcases Nat.lt_or_ge (durationSec / 8) bm.length with hIn | hOut
  · rw [Nat.min_eq_left (Nat.le_of_lt hIn)]
    by_cases hRest : durationSec % 8 = 0
    · have hNone : BitVec.ofNat 8 (2 ^ (durationSec % 8) - 1) = 0#8 := by rw [hRest]; rfl
      rw [if_neg (by omega), hNone, BitVec.and_zero, Bitmap.ones_zero]
    · rw [if_pos ⟨hRest, hIn⟩]
  · rw [Nat.min_eq_right hOut, if_neg (by omega), List.take_of_length_le hOut, List.take_length,
      List.getD_eq_default _ _ hOut, BitVec.zero_and, Bitmap.ones_zero]

/-- The fraction is that of the marked seconds below the duration. -/
theorem watchCoverageFraction_eq {durationSec : Int} (hPos : 0 < durationSec) (bm : Bitmap 8) :
    watchCoverageFraction durationSec bm =
      ((List.range durationSec.toNat).countP bm.bit : ℚ) / durationSec := by
  have hDuration : (0 : ℚ) < durationSec := by exact_mod_cast hPos
  have hToNat : ((durationSec.toNat : Nat) : ℚ) = durationSec := by
    exact_mod_cast Int.toNat_of_nonneg hPos.le
  unfold watchCoverageFraction
  rw [if_neg (not_le.mpr hPos)]
  split
  · next hEmpty =>
    subst hEmpty
    have hNone : (List.range durationSec.toNat).countP (Bitmap.bit ([] : Bitmap 8)) = 0 :=
      List.countP_eq_zero.mpr fun i _ => by simp
    rw [hNone]
    simp
  · rw [watchedBelow_eq]
    have hCount : ((List.range durationSec.toNat).countP bm.bit : ℚ) ≤ durationSec := by
      have hLe := List.countP_le_length (p := bm.bit) (l := List.range durationSec.toNat)
      rw [List.length_range] at hLe
      rw [← hToNat]
      exact_mod_cast hLe
    have hLow : (0 : ℚ) ≤ (List.range durationSec.toNat).countP bm.bit / durationSec :=
      div_nonneg (Nat.cast_nonneg _) hDuration.le
    have hHigh : ((List.range durationSec.toNat).countP bm.bit : ℚ) / durationSec ≤ 1 :=
      (div_le_one hDuration).mpr hCount
    dsimp only
    rw [if_neg (not_lt.mpr hLow), if_neg (not_lt.mpr hHigh)]

end Fraction

end Richter.Kv
