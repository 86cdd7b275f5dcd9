import Mathlib.Tactic.Linarith
import Richter.Kv.WatchCoverage

/-! What a row of reports leaves in the records of a student and a lesson: the seconds marked stay
within the budget, and a student who plays the video marks every second played. -/

namespace Richter.Kv

open Lib

section Marking

variable {bm : Bitmap 8}

@[simp] theorem length_setBits (i n : Nat) : (setBits i n bm).length = bm.length := by
  induction n generalizing i bm with
  | zero => rfl
  | succ n ih =>
    rw [setBits, ih]
    split
    · rfl
    · exact Bitmap.length_set bm i

@[simp] theorem length_setBitsWithin (i n : Nat) (budget : Int) :
    (setBitsWithin i n budget bm).length = bm.length := by
  induction n generalizing i budget bm with
  | zero => rfl
  | succ n ih =>
    unfold setBitsWithin
    split
    · split
      · exact ih (i + 1) budget
      · rw [ih, Bitmap.length_set]
    · rfl

theorem count_le_count_setBits {i n : Nat} (h : i + n ≤ 8 * bm.length) :
    bm.count ≤ (setBits i n bm).count := by
  induction n generalizing i bm with
  | zero => exact Nat.le_refl _
  | succ n ih =>
    rw [setBits]
    split
    · exact ih (by omega)
    · next hUnset =>
      have hSet := Bitmap.count_set (by decide) (by omega) (Bool.eq_false_iff.mpr hUnset)
      have hRoom : i + 1 + n ≤ 8 * (bm.set i).length := by
        rw [Bitmap.length_set]
        omega
      have hRest := ih hRoom
      omega

/-- A budget that is enough for all seconds leaves none out. -/
theorem setBitsWithin_eq_setBits {i n : Nat} {budget : Int} (h : i + n ≤ 8 * bm.length)
    (hBudget : ((setBits i n bm).count : Int) ≤ bm.count + budget) :
    setBitsWithin i n budget bm = setBits i n bm := by
  induction n generalizing i budget bm with
  | zero => rfl
  | succ n ih =>
    rw [setBits] at hBudget
    rw [setBitsWithin, setBits]
    by_cases hSet : bm.bit i = true
    · rw [if_pos hSet] at hBudget
      rw [if_pos hSet, if_pos hSet]
      split
      · exact ih (by omega) hBudget
      · next hNone =>
        have hSame : setBitsWithin (i + 1) n budget bm = bm := by
          cases n with
          | zero => rfl
          | succ n => rw [setBitsWithin, if_neg hNone]
        rw [← ih (by omega) hBudget, hSame]
    · rw [if_neg hSet] at hBudget
      rw [if_neg hSet, if_neg hSet]
      have hRoom : i + 1 + n ≤ 8 * (bm.set i).length := by
        rw [Bitmap.length_set]
        omega
      have hCount := Bitmap.count_set (by decide) (by omega) (Bool.eq_false_iff.mpr hSet)
      have hRest := count_le_count_setBits hRoom
      rw [if_pos (by omega)]
      exact ih hRoom (by omega)

theorem bit_setBitsWithin_of_bit {i n : Nat} {budget : Int} (h : i + n ≤ 8 * bm.length) {j : Nat}
    (hBit : bm.bit j = true) : (setBitsWithin i n budget bm).bit j = true := by
  induction n generalizing i budget bm with
  | zero => exact hBit
  | succ n ih =>
    unfold setBitsWithin
    split
    · split
      · exact ih (by omega) hBit
      · apply ih
        · rw [Bitmap.length_set]
          omega
        · rw [Bitmap.bit_set (by decide) (by omega), hBit, Bool.true_or]
    · exact hBit

/-- The marks stay within the budget, or there is no new one. -/
theorem count_setBitsWithin {i n : Nat} (budget : Int) (h : i + n ≤ 8 * bm.length) :
    ((setBitsWithin i n budget bm).count : Int) ≤ bm.count + max 0 budget := by
  induction n generalizing i budget bm with
  | zero =>
    rw [setBitsWithin]
    omega
  | succ n ih =>
    unfold setBitsWithin
    split
    · split
      · exact ih budget (by omega)
      · next hUnset =>
        have hCount := Bitmap.count_set (by decide) (by omega) (Bool.eq_false_iff.mpr hUnset)
        have hRest : ((setBitsWithin (i + 1) n (budget - 1) (bm.set i)).count : Int) ≤
            (bm.set i).count + max 0 (budget - 1) := by
          apply ih
          rw [Bitmap.length_set]
          omega
        omega
    · omega

end Marking

section MarkWatched

variable {lo hi : Nat} {nowUnixMs : Int} {maxRate : ℚ} {initialGraceSeconds : Int}
  {c : WatchCoverage}

theorem room_for_marks (hLe : lo ≤ hi) :
    lo + (hi - lo) ≤ 8 * (c.bitmap.grow ((hi + 7) / 8)).length := by
  have hWords := Bitmap.length_grow ((hi + 7) / 8) c.bitmap
  omega

theorem bit_setBits_grow (hLe : lo ≤ hi) (j : Nat) :
    (setBits lo (hi - lo) (c.bitmap.grow ((hi + 7) / 8))).bit j = true ↔
      c.bitmap.bit j = true ∨ lo ≤ j ∧ j < hi := by
  rw [bit_setBits (room_for_marks hLe), Bitmap.bit_grow, Bool.or_eq_true, decide_eq_true_eq,
    Nat.add_sub_cancel' hLe]

/-- With the limit disabled, or with a budget for all marks, every second is marked. -/
theorem bit_markWatched (hLe : lo ≤ hi)
    (hBudget : 0 < maxRate →
      ((setBits lo (hi - lo) (c.bitmap.grow ((hi + 7) / 8))).count : Int) ≤
        truncate (allowedTotal nowUnixMs (c.firstSeenMs.getD nowUnixMs) maxRate
          initialGraceSeconds)) (j : Nat) :
    (markWatched lo hi nowUnixMs maxRate initialGraceSeconds c).bitmap.bit j = true ↔
      c.bitmap.bit j = true ∨ lo ≤ j ∧ j < hi := by
  rw [← bit_setBits_grow hLe]
  unfold markWatched
  dsimp only
  split
  · exact Iff.rfl
  · next hLimit =>
    have hAll := hBudget (not_le.mp hLimit)
    rw [setBitsWithin_eq_setBits (room_for_marks hLe) (by omega)]

theorem firstSeenMs_markWatched (hRate : 0 < maxRate) :
    (markWatched lo hi nowUnixMs maxRate initialGraceSeconds c).firstSeenMs =
      some (c.firstSeenMs.getD nowUnixMs) := by
  unfold markWatched
  rw [if_neg (not_le.mpr hRate)]

variable (nowUnixMs initialGraceSeconds c) in
theorem count_markWatched (hLe : lo ≤ hi) (hRate : 0 < maxRate) :
    ((markWatched lo hi nowUnixMs maxRate initialGraceSeconds c).bitmap.count : Int) ≤
      max (c.bitmap.count : Int) (truncate (allowedTotal nowUnixMs
        (c.firstSeenMs.getD nowUnixMs) maxRate initialGraceSeconds)) := by
  unfold markWatched
  rw [if_neg (not_le.mpr hRate)]
  dsimp only
  generalize truncate (allowedTotal nowUnixMs (c.firstSeenMs.getD nowUnixMs) maxRate
    initialGraceSeconds) = allowed
  have hCount := count_setBitsWithin (allowed - (c.bitmap.count : Int))
    (room_for_marks (c := c) hLe)
  rw [Bitmap.count_grow] at hCount
  rw [Bitmap.count_grow]
  omega

end MarkWatched

/-- What later calls keep of the records. -/
structure Kept (c c' : WatchCoverage) : Prop where
  bits : ∀ i, c.bitmap.bit i = true → c'.bitmap.bit i = true
  length : c.bitmap.length ≤ c'.bitmap.length
  firstSeenMs : ∀ firstSeenMs, c.firstSeenMs = some firstSeenMs →
    c'.firstSeenMs = some firstSeenMs

theorem Kept.refl (c : WatchCoverage) : Kept c c :=
  ⟨fun _ h => h, Nat.le_refl _, fun _ h => h⟩

theorem Kept.trans {c1 c2 c3 : WatchCoverage} (h1 : Kept c1 c2) (h2 : Kept c2 c3) : Kept c1 c3 :=
  ⟨fun i hi => h2.bits i (h1.bits i hi), h1.length.trans h2.length,
    fun f hf => h2.firstSeenMs f (h1.firstSeenMs f hf)⟩

theorem kept_markWatched {lo hi : Nat} {nowUnixMs : Int} {maxRate : ℚ} {initialGraceSeconds : Int}
    {c : WatchCoverage} (hLe : lo ≤ hi) :
    Kept c (markWatched lo hi nowUnixMs maxRate initialGraceSeconds c) := by
  have hGrown := Bitmap.length_le_length_grow ((hi + 7) / 8) c.bitmap
  unfold markWatched
  dsimp only
  split
  · refine ⟨fun j hj => (bit_setBits_grow hLe j).mpr (.inl hj), ?_, fun _ h => h⟩
    rwa [length_setBits]
  · refine ⟨fun j hj => ?_, ?_, fun f hf => ?_⟩
    · apply bit_setBitsWithin_of_bit (room_for_marks hLe)
      rwa [Bitmap.bit_grow]
    · rwa [length_setBitsWithin]
    · rw [hf, Option.getD_some]

/-- A call of `AddWatchCoverage` for the student and the lesson, at the time it reads. -/
structure Report where
  fromSec : ℚ
  toSec : ℚ
  durationSec : Int
  nowUnixMs : Int

namespace Report

/-- The first second that the report marks. -/
def lo (r : Report) : Nat := ⌊r.fromSec⌋.toNat

/-- The end of the seconds that the report marks. -/
def hi (r : Report) : Nat :=
  (if 0 < r.durationSec then min ⌈r.toSec⌉ r.durationSec else ⌈r.toSec⌉).toNat

/-- The report passes the checks of `AddWatchCoverage`. -/
def Taken (r : Report) : Prop :=
  r.fromSec < r.toSec ∧ 0 ≤ r.fromSec ∧ (0 < r.durationSec → r.toSec - r.fromSec ≤ r.durationSec)

instance (r : Report) : Decidable r.Taken := inferInstanceAs (Decidable (_ ∧ _))

/-- The report gets as far as the transaction. -/
def Marks (r : Report) : Prop := r.Taken ∧ r.lo < r.hi

instance (r : Report) : Decidable r.Marks := inferInstanceAs (Decidable (_ ∧ _))

variable {r : Report}

theorem lo_cast (hFrom : 0 ≤ r.fromSec) : (r.lo : Int) = ⌊r.fromSec⌋ :=
  Int.toNat_of_nonneg (Int.floor_nonneg.mpr hFrom)

theorem hi_cast (hPos : 0 < r.durationSec) (hTo : 0 ≤ r.toSec) :
    (r.hi : Int) = min ⌈r.toSec⌉ r.durationSec := by
  have hCeil : 0 ≤ ⌈r.toSec⌉ := Int.ceil_nonneg hTo
  rw [hi, if_pos hPos]
  omega

/-- With a known duration, what `AddWatchCoverage` rejects. -/
theorem not_taken_iff (hPos : 0 < r.durationSec) :
    ¬ r.Taken ↔ r.toSec ≤ r.fromSec ∨ r.fromSec < 0 ∨
      (r.durationSec : ℚ) < r.toSec - r.fromSec := by
  rw [Taken, not_and_or, not_and_or, not_lt, not_le, Classical.not_imp, not_le]
  exact or_congr_right (or_congr_right (and_iff_right hPos))

end Report

section Reports

variable (maxRate : ℚ) (initialGraceSeconds : Int)

/-- The records after a call, which a call that fails leaves as they are. -/
def report (c : WatchCoverage) (r : Report) : WatchCoverage :=
  match addWatchCoverage r.fromSec r.toSec r.durationSec r.nowUnixMs maxRate initialGraceSeconds
    c with
  | .ok c' => c'
  | .error _ => c

def reports (c : WatchCoverage) (rs : List Report) : WatchCoverage :=
  rs.foldl (report maxRate initialGraceSeconds) c

variable {maxRate : ℚ} {initialGraceSeconds : Int}

theorem reports_cons (c : WatchCoverage) (r : Report) (rs : List Report) :
    reports maxRate initialGraceSeconds c (r :: rs) =
      reports maxRate initialGraceSeconds (report maxRate initialGraceSeconds c r) rs := rfl

theorem reports_append (c : WatchCoverage) (rs rs' : List Report) :
    reports maxRate initialGraceSeconds c (rs ++ rs') =
      reports maxRate initialGraceSeconds (reports maxRate initialGraceSeconds c rs) rs' :=
  List.foldl_append

variable (maxRate initialGraceSeconds) in
/-- What `AddWatchCoverage` answers: an error to a report that it does not take. -/
theorem addWatchCoverage_cases (c : WatchCoverage) (r : Report) :
    (¬ r.Taken ∧ ∃ e, addWatchCoverage r.fromSec r.toSec r.durationSec r.nowUnixMs maxRate
      initialGraceSeconds c = .error e) ∨
    (r.Taken ∧ addWatchCoverage r.fromSec r.toSec r.durationSec r.nowUnixMs maxRate
      initialGraceSeconds c =
        .ok (if r.hi ≤ r.lo then c
          else markWatched r.lo r.hi r.nowUnixMs maxRate initialGraceSeconds c)) := by
  unfold addWatchCoverage
  split
  · next hOrder => exact .inl ⟨fun h => hOrder h.1, _, rfl⟩
  · next hOrder =>
    split
    · next hNegative => exact .inl ⟨fun h => not_le.mpr hNegative h.2.1, _, rfl⟩
    · next hNegative =>
      split
      · next hExceeds =>
        rw [Bool.and_eq_true, decide_eq_true_eq, decide_eq_true_eq] at hExceeds
        exact .inl ⟨fun h => not_le.mpr hExceeds.2 (h.2.2 hExceeds.1), _, rfl⟩
      · next hExceeds =>
        rw [Bool.and_eq_true, decide_eq_true_eq, decide_eq_true_eq] at hExceeds
        have hTaken : r.Taken := ⟨not_not.mp hOrder, not_lt.mp hNegative,
          fun hPos => not_lt.mp fun hLt => hExceeds ⟨hPos, hLt⟩⟩
        refine .inr ⟨hTaken, ?_⟩
        show (if r.hi ≤ r.lo then _ else _) = _
        split <;> rfl

/-- A call leaves the records, or runs its transaction. -/
theorem report_eq (c : WatchCoverage) (r : Report) :
    report maxRate initialGraceSeconds c r =
      if r.Marks then markWatched r.lo r.hi r.nowUnixMs maxRate initialGraceSeconds c else c := by
  unfold report
  rcases addWatchCoverage_cases maxRate initialGraceSeconds c r with
    ⟨hNot, e, hError⟩ | ⟨hTaken, hOk⟩
  · rw [hError, if_neg fun h => hNot h.1]
  · rw [hOk]
    dsimp only
    by_cases hSome : r.lo < r.hi
    · rw [if_neg (Nat.not_le.mpr hSome), if_pos ⟨hTaken, hSome⟩]
    · rw [if_pos (Nat.not_lt.mp hSome), if_neg fun h => hSome h.2]

theorem kept_report (c : WatchCoverage) (r : Report) :
    Kept c (report maxRate initialGraceSeconds c r) := by
  rw [report_eq]
  split
  · next hMarks => exact kept_markWatched (Nat.le_of_lt hMarks.2)
  · exact Kept.refl c

theorem kept_reports (c : WatchCoverage) (rs : List Report) :
    Kept c (reports maxRate initialGraceSeconds c rs) := by
  induction rs generalizing c with
  | nil => exact Kept.refl c
  | cons r rs ih => exact (kept_report c r).trans (ih _)

/-- The stored time is that of the first report that runs its transaction. -/
theorem firstSeenMs_reports (hRate : 0 < maxRate) (c : WatchCoverage) (rs : List Report) :
    (reports maxRate initialGraceSeconds c rs).firstSeenMs =
      c.firstSeenMs.or ((rs.find? fun r => decide r.Marks).map Report.nowUnixMs) := by
  induction rs generalizing c with
  | nil => simp [reports]
  | cons r rs ih =>
    rw [reports_cons, ih, report_eq, List.find?_cons]
    by_cases hMarks : r.Marks
    · rw [if_pos hMarks, firstSeenMs_markWatched hRate, decide_eq_true hMarks]
      cases c.firstSeenMs <;> rfl
    · rw [if_neg hMarks, decide_eq_false hMarks]

end Reports

section Budget

/-- The seconds that the limit allows at `nowUnixMs`. -/
def allowedSeconds (maxRate : ℚ) (initialGraceSeconds : Int) (nowUnixMs firstSeenMs : Int) : Int :=
  ⌊(initialGraceSeconds : ℚ) + maxRate * ((nowUnixMs - firstSeenMs : Int) : ℚ) / 1000⌋

variable {maxRate : ℚ} {initialGraceSeconds : Int}

theorem allowedTotal_eq {nowUnixMs firstSeenMs : Int} (h : firstSeenMs ≤ nowUnixMs) :
    allowedTotal nowUnixMs firstSeenMs maxRate initialGraceSeconds =
      initialGraceSeconds + maxRate * ((nowUnixMs - firstSeenMs : Int) : ℚ) / 1000 := by
  unfold allowedTotal
  split
  · rw [mul_div_assoc]
  · have hNone : nowUnixMs - firstSeenMs = 0 := by omega
    rw [hNone]
    simp

theorem truncate_allowedTotal (hRate : 0 < maxRate) (hGrace : 0 ≤ initialGraceSeconds)
    {nowUnixMs firstSeenMs : Int} (h : firstSeenMs ≤ nowUnixMs) :
    truncate (allowedTotal nowUnixMs firstSeenMs maxRate initialGraceSeconds) =
      allowedSeconds maxRate initialGraceSeconds nowUnixMs firstSeenMs := by
  have hElapsed : (0 : ℚ) ≤ ((nowUnixMs - firstSeenMs : Int) : ℚ) := by
    exact_mod_cast Int.sub_nonneg_of_le h
  have hNonneg : (0 : ℚ) ≤
      initialGraceSeconds + maxRate * ((nowUnixMs - firstSeenMs : Int) : ℚ) / 1000 := by
    have hGraceRat : (0 : ℚ) ≤ initialGraceSeconds := by exact_mod_cast hGrace
    positivity
  rw [allowedTotal_eq h, truncate, if_pos hNonneg, allowedSeconds]

theorem allowedSeconds_mono (hRate : 0 < maxRate) {nowUnixMs later firstSeenMs : Int}
    (h : nowUnixMs ≤ later) :
    allowedSeconds maxRate initialGraceSeconds nowUnixMs firstSeenMs ≤
      allowedSeconds maxRate initialGraceSeconds later firstSeenMs := by
  apply Int.floor_le_floor
  have hElapsed : ((nowUnixMs - firstSeenMs : Int) : ℚ) ≤ ((later - firstSeenMs : Int) : ℚ) := by
    exact_mod_cast Int.sub_le_sub_right h firstSeenMs
  gcongr

/-- The marks at `nowUnixMs` are within the budget since the first report, and there is none
before it. -/
structure Budgeted (maxRate : ℚ) (initialGraceSeconds nowUnixMs : Int) (c : WatchCoverage) :
    Prop where
  unseen : c.firstSeenMs = none → c.bitmap.count = 0
  seen : ∀ firstSeenMs, c.firstSeenMs = some firstSeenMs → firstSeenMs ≤ nowUnixMs ∧
    (c.bitmap.count : Int) ≤ allowedSeconds maxRate initialGraceSeconds nowUnixMs firstSeenMs

theorem Budgeted.mono (hRate : 0 < maxRate) {nowUnixMs later : Int} {c : WatchCoverage}
    (hBudget : Budgeted maxRate initialGraceSeconds nowUnixMs c) (h : nowUnixMs ≤ later) :
    Budgeted maxRate initialGraceSeconds later c :=
  ⟨hBudget.unseen, fun f hf => ⟨(hBudget.seen f hf).1.trans h,
    (hBudget.seen f hf).2.trans (allowedSeconds_mono hRate h)⟩⟩

/-- A transaction keeps the budget of its own time. -/
theorem Budgeted.markWatched (hRate : 0 < maxRate) (hGrace : 0 ≤ initialGraceSeconds)
    {nowUnixMs : Int} {c : WatchCoverage}
    (hBudget : Budgeted maxRate initialGraceSeconds nowUnixMs c) {lo hi : Nat} (hLe : lo ≤ hi) :
    Budgeted maxRate initialGraceSeconds nowUnixMs
      (markWatched lo hi nowUnixMs maxRate initialGraceSeconds c) := by
  have hFirst : c.firstSeenMs.getD nowUnixMs ≤ nowUnixMs := by
    cases hSeen : c.firstSeenMs with
    | none => exact Int.le_refl _
    | some f => exact (hBudget.seen f hSeen).1
  have hOld : (c.bitmap.count : Int) ≤ allowedSeconds maxRate initialGraceSeconds nowUnixMs
      (c.firstSeenMs.getD nowUnixMs) := by
    cases hSeen : c.firstSeenMs with
    | none =>
      rw [hBudget.unseen hSeen, Option.getD_none, allowedSeconds, Int.sub_self]
      simpa using hGrace
    | some f => exact (hBudget.seen f hSeen).2
  have hCount := count_markWatched nowUnixMs initialGraceSeconds c hLe hRate
  rw [truncate_allowedTotal hRate hGrace hFirst] at hCount
  constructor
  · intro hNone
    rw [firstSeenMs_markWatched hRate] at hNone
    cases hNone
  · intro f hf
    rw [firstSeenMs_markWatched hRate, Option.some.injEq] at hf
    subst hf
    exact ⟨hFirst, hCount.trans (max_le hOld (Int.le_refl _))⟩

theorem Budgeted.report (hRate : 0 < maxRate) (hGrace : 0 ≤ initialGraceSeconds)
    {c : WatchCoverage} {r : Report}
    (hBudget : Budgeted maxRate initialGraceSeconds r.nowUnixMs c) :
    Budgeted maxRate initialGraceSeconds r.nowUnixMs (report maxRate initialGraceSeconds c r) := by
  rw [report_eq]
  split
  · next hMarks => exact hBudget.markWatched hRate hGrace (Nat.le_of_lt hMarks.2)
  · exact hBudget

/-- Reports in the order of their times keep the budget at the time of the last one. -/
theorem Budgeted.reports (hRate : 0 < maxRate) (hGrace : 0 ≤ initialGraceSeconds)
    {nowUnixMs : Int} {c : WatchCoverage}
    (hBudget : Budgeted maxRate initialGraceSeconds nowUnixMs c) {rs : List Report} {r : Report}
    (hTimes : (rs ++ [r]).Pairwise fun r1 r2 => r1.nowUnixMs ≤ r2.nowUnixMs)
    (hLater : ∀ r' ∈ rs ++ [r], nowUnixMs ≤ r'.nowUnixMs) :
    Budgeted maxRate initialGraceSeconds r.nowUnixMs
      (Kv.reports maxRate initialGraceSeconds c (rs ++ [r])) := by
  induction rs generalizing c nowUnixMs with
  | nil => exact (hBudget.mono hRate (hLater r (List.mem_singleton_self r))).report hRate hGrace
  | cons r' rs ih =>
    rw [List.cons_append, List.pairwise_cons] at hTimes
    have hNow := (hBudget.mono hRate (hLater r' List.mem_cons_self)).report hRate hGrace
    rw [List.cons_append, reports_cons]
    exact ih hNow hTimes.2 hTimes.1

theorem budgeted_empty (nowUnixMs : Int) :
    Budgeted maxRate initialGraceSeconds nowUnixMs {} :=
  ⟨fun _ => rfl, fun _ hf => nomatch hf⟩

/-- After every call the marks are within the budget since the first report that ran its
transaction, and what is stored after a call is still there after later ones. -/
theorem coverage_within_budget (hRate : 0 < maxRate) (hGrace : 0 ≤ initialGraceSeconds)
    (done : List Report) (r : Report) (later : List Report)
    (hTimes : (done ++ r :: later).Pairwise fun r1 r2 => r1.nowUnixMs ≤ r2.nowUnixMs) :
    let c := reports maxRate initialGraceSeconds {} (done ++ [r])
    c.firstSeenMs = ((done ++ [r]).find? fun r' => decide r'.Marks).map Report.nowUnixMs ∧
      (c.firstSeenMs = none → c.bitmap.count = 0) ∧
      (∀ firstSeenMs, c.firstSeenMs = some firstSeenMs →
        (c.bitmap.count : Int) ≤ ⌊(initialGraceSeconds : ℚ) +
          maxRate * ((r.nowUnixMs - firstSeenMs : Int) : ℚ) / 1000⌋) ∧
      Kept c (reports maxRate initialGraceSeconds {} (done ++ r :: later)) := by
  intro c
  have hSplit : done ++ r :: later = (done ++ [r]) ++ later := by simp
  rw [hSplit] at hTimes
  have hDone := (List.pairwise_append.mp hTimes).1
  obtain ⟨first, hFirst⟩ : ∃ first : Int, ∀ r' ∈ done ++ [r], first ≤ r'.nowUnixMs := by
    cases done with
    | nil => exact ⟨r.nowUnixMs, fun r' hr' => by rw [List.mem_singleton.mp hr']⟩
    | cons r1 rs =>
      refine ⟨r1.nowUnixMs, List.forall_mem_cons.mpr ⟨Int.le_refl _, ?_⟩⟩
      exact (List.pairwise_cons.mp hDone).1
  have hBudget : Budgeted maxRate initialGraceSeconds r.nowUnixMs c :=
    (budgeted_empty first).reports hRate hGrace hDone hFirst
  refine ⟨?_, hBudget.unseen, fun f hf => (hBudget.seen f hf).2, ?_⟩
  · rw [firstSeenMs_reports hRate]
    rfl
  · rw [hSplit, reports_append]
    exact kept_reports c later

/-- A report of the whole video after one second marks the twelve seconds that the limit allows. -/
theorem forged_report_within_budget :
    let c := reports 2 10 {} [⟨0, 5, 100, 1000⟩, ⟨5, 100, 100, 2000⟩]
    c.firstSeenMs = some 1000 ∧ (c.bitmap.count : Int) ≤ 12 := by
  obtain ⟨hFirst, -, hCount, -⟩ := coverage_within_budget (by decide +kernel : (0 : ℚ) < 2)
    (by decide : (0 : Int) ≤ 10) [⟨0, 5, 100, 1000⟩] ⟨5, 100, 100, 2000⟩ [] (by simp)
  have hSeen := hFirst.trans
    (by decide +kernel : _ = (some 1000 : Option Int))
  refine ⟨hSeen, (hCount 1000 hSeen).trans ?_⟩
  decide +kernel

end Budget

section Limitless

theorem watchCoverageFraction_between {durationSec : Int} (hPos : 0 < durationSec) (bm : Bitmap 8) :
    0 ≤ watchCoverageFraction durationSec bm ∧ watchCoverageFraction durationSec bm ≤ 1 := by
  have hDuration : (0 : ℚ) < durationSec := by exact_mod_cast hPos
  have hToNat : ((durationSec.toNat : Nat) : ℚ) = durationSec := by
    exact_mod_cast Int.toNat_of_nonneg hPos.le
  have hCount := List.countP_le_length (p := bm.bit) (l := List.range durationSec.toNat)
  rw [List.length_range] at hCount
  rw [watchCoverageFraction_eq hPos]
  refine ⟨div_nonneg (Nat.cast_nonneg _) hDuration.le, (div_le_one hDuration).mpr ?_⟩
  rw [← hToNat]
  exact_mod_cast hCount

/-- The fraction counts the marked seconds of the video, and with the limit disabled a report that
is taken marks the seconds that it covers, up to the end of the video. -/
theorem coverage_fraction_exact {durationSec : Int} (hPos : 0 < durationSec) :
    (∀ bm : Bitmap 8,
      watchCoverageFraction durationSec bm =
        ((List.range durationSec.toNat).countP bm.bit : ℚ) / durationSec ∧
      0 ≤ watchCoverageFraction durationSec bm ∧ watchCoverageFraction durationSec bm ≤ 1) ∧
    ∀ (fromSec toSec : ℚ) (nowUnixMs : Int) (maxRate : ℚ) (initialGraceSeconds : Int)
      (c : WatchCoverage), maxRate ≤ 0 →
      ((∃ e, addWatchCoverage fromSec toSec durationSec nowUnixMs maxRate initialGraceSeconds c =
        .error e) ↔ toSec ≤ fromSec ∨ fromSec < 0 ∨ (durationSec : ℚ) < toSec - fromSec) ∧
      ∀ c', addWatchCoverage fromSec toSec durationSec nowUnixMs maxRate initialGraceSeconds c =
        .ok c' → ∀ i : Nat, c'.bitmap.bit i = true ↔
          c.bitmap.bit i = true ∨ ⌊fromSec⌋ ≤ i ∧ (i : Int) < min ⌈toSec⌉ durationSec := by
  refine ⟨fun bm => ⟨watchCoverageFraction_eq hPos bm, watchCoverageFraction_between hPos bm⟩, ?_⟩
  intro fromSec toSec nowUnixMs maxRate initialGraceSeconds c hRate
  let r : Report := ⟨fromSec, toSec, durationSec, nowUnixMs⟩
  have hRejects : ¬ r.Taken ↔
      toSec ≤ fromSec ∨ fromSec < 0 ∨ (durationSec : ℚ) < toSec - fromSec := r.not_taken_iff hPos
  rcases addWatchCoverage_cases maxRate initialGraceSeconds c r with
    ⟨hNot, e, hError⟩ | ⟨hTaken, hOk⟩
  · refine ⟨⟨fun _ => hRejects.mp hNot, fun _ => ⟨e, hError⟩⟩, fun c' hc' => ?_⟩
    cases hError.symm.trans hc'
  · refine ⟨⟨fun ⟨e, he⟩ => ?_, fun h => absurd hTaken (hRejects.mpr h)⟩, fun c' hc' i => ?_⟩
    · cases hOk.symm.trans he
    have hLo : (r.lo : Int) = ⌊fromSec⌋ := Report.lo_cast hTaken.2.1
    have hHi : (r.hi : Int) = min ⌈toSec⌉ durationSec :=
      Report.hi_cast hPos (hTaken.2.1.trans hTaken.1.le)
    have hEq := Except.ok.inj (hOk.symm.trans hc')
    rw [← hEq, ← hLo, ← hHi]
    split
    · next hNone => exact ⟨.inl, fun h => h.elim id fun hIn => absurd hIn (by omega)⟩
    · next hSome =>
      rw [bit_markWatched (by omega) fun hLimit => absurd hLimit (not_lt.mpr hRate)]
      exact or_congr_right (by omega)

theorem coverage_fraction_exact_ten :
    watchCoverageFraction 10 [0b101#8] = ((List.range 10).countP (Bitmap.bit [0b101#8]) : ℚ) / 10 ∧
      ∀ c', addWatchCoverage (1 / 2) (19 / 2) 10 0 0 0 {} = .ok c' →
        (c'.bitmap.bit 0 = true ∧ c'.bitmap.bit 9 = true) := by
  obtain ⟨hFraction, hMarks⟩ := coverage_fraction_exact (by decide : (0 : Int) < 10)
  refine ⟨(hFraction [0b101#8]).1, fun c' hc' => ?_⟩
  have hBits := (hMarks (1 / 2) (19 / 2) 0 0 0 {} (le_refl 0)).2 c' hc'
  exact ⟨(hBits 0).mpr (.inr (by decide +kernel)), (hBits 9).mpr (.inr (by decide +kernel))⟩

end Limitless

section Playback

/-- The reports of a student who plays the video from `p` on: each of them is sent at its time, and
covers what was played since the one before. -/
def playback (durationSec : Int) (p : ℚ) : List (Int × ℚ) → List Report
  | [] => []
  | (nowUnixMs, q) :: later => ⟨p, q, durationSec, nowUnixMs⟩ :: playback durationSec q later

/-- The position that the last report reaches. -/
def lastPosition (p : ℚ) (played : List (Int × ℚ)) : ℚ := played.foldl (fun _ s => s.2) p

theorem lastPosition_mem (p : ℚ) (s : Int × ℚ) (played : List (Int × ℚ)) :
    ∃ s' ∈ s :: played, lastPosition p (s :: played) = s'.2 := by
  induction played generalizing p s with
  | nil => exact ⟨s, List.mem_singleton_self s, rfl⟩
  | cons s1 played ih =>
    obtain ⟨s', hs', hLast⟩ := ih s.2 s1
    exact ⟨s', List.mem_cons_of_mem s hs', hLast⟩

/-- The marked seconds are those from `lo` up to `hi`, since the time `t1`. -/
structure Played (maxRate : ℚ) (t1 : Int) (lo hi : Nat) (c : WatchCoverage) : Prop where
  bits : ∀ i, c.bitmap.bit i = true ↔ lo ≤ i ∧ i < hi
  firstSeenMs : 0 < maxRate → c.firstSeenMs = some t1

variable {maxRate : ℚ} {initialGraceSeconds durationSec t1 : Int}

/-- The marks of a playback from `p0` to `q` are within the budget. -/
theorem played_within_budget (hRate : 0 < maxRate) {p0 p1 q : ℚ} {t : Int} (hq : p0 < q)
    (hGrace : p1 - p0 + 2 ≤ initialGraceSeconds)
    (hPace : q - p1 ≤ maxRate * (((t - t1 : Int) : ℚ) / 1000)) :
    ⌈q⌉ - ⌊p0⌋ ≤ truncate (allowedTotal t t1 maxRate initialGraceSeconds) := by
  have hTotal : q - p0 + 2 ≤ allowedTotal t t1 maxRate initialGraceSeconds := by
    unfold allowedTotal
    split
    · linarith
    · next hEarly =>
      have hNonpos : ((t - t1 : Int) : ℚ) ≤ 0 := by exact_mod_cast not_lt.mp hEarly
      have hNone : maxRate * (((t - t1 : Int) : ℚ) / 1000) ≤ 0 :=
        mul_nonpos_of_nonneg_of_nonpos hRate.le (by linarith)
      linarith
  have hCeil := Int.ceil_lt_add_one q
  have hFloor := Int.lt_floor_add_one p0
  rw [truncate, if_pos (by linarith)]
  apply Int.le_floor.mpr
  push_cast
  linarith

/-- One more report of a playback. -/
theorem Played.report {p0 p1 p q : ℚ} {t : Int} {lo hi : Nat} {c : WatchCoverage}
    (hp0 : 0 ≤ p0) (hLo : (lo : Int) = ⌊p0⌋) (hBits : ∀ i, c.bitmap.bit i = true ↔ lo ≤ i ∧ i < hi)
    (hFirst : 0 < maxRate → c.firstSeenMs.getD t = t1) (hFrom : p0 ≤ p) (hMeets : ⌊p⌋ ≤ hi)
    (hStart : hi ≤ lo → p = p0) (hForward : p < q) (hWithin : q ≤ durationSec)
    (hUp : (hi : Int) ≤ ⌈q⌉) (hGrace : p1 - p0 + 2 ≤ initialGraceSeconds)
    (hPace : q - p1 ≤ maxRate * (((t - t1 : Int) : ℚ) / 1000)) :
    Played maxRate t1 lo ⌈q⌉.toNat
      (Kv.report maxRate initialGraceSeconds c ⟨p, q, durationSec, t⟩) := by
  let r : Report := ⟨p, q, durationSec, t⟩
  have hp : 0 ≤ p := hp0.trans hFrom
  have hq : 0 ≤ q := hp.trans hForward.le
  have hFloor : 0 ≤ ⌊p⌋ := Int.floor_nonneg.mpr hp
  have hFloors : ⌊p0⌋ ≤ ⌊p⌋ := Int.floor_le_floor hFrom
  have hCeil : ⌈q⌉ ≤ durationSec := Int.ceil_le.mpr hWithin
  have hSome : ⌊p⌋ < ⌈q⌉ := Int.floor_lt_ceil_of_lt hForward
  have hrLo : (r.lo : Int) = ⌊p⌋ := Report.lo_cast hp
  have hrHi : r.hi = ⌈q⌉.toNat := by
    have hPos : 0 < durationSec := by omega
    have hMin : (r.hi : Int) = min ⌈q⌉ durationSec := Report.hi_cast hPos hq
    omega
  have hMarks : r.Marks := by
    refine ⟨⟨hForward, hp, fun _ => ?_⟩, by omega⟩
    show q - p ≤ durationSec
    linarith
  have hLe := Nat.le_of_lt hMarks.2
  -- What was marked and what is reported now meet.
  have hUnion : ∀ i, (c.bitmap.bit i = true ∨ r.lo ≤ i ∧ i < r.hi) ↔ lo ≤ i ∧ i < r.hi := by
    intro i
    rw [hBits]
    constructor
    · omega
    · intro h
      rcases Nat.lt_or_ge lo hi with hOld | hFresh
      · omega
      · have hSame : ⌊p⌋ = ⌊p0⌋ := by rw [hStart hFresh]
        omega
  have hBudget : 0 < maxRate →
      ((setBits r.lo (r.hi - r.lo) (c.bitmap.grow ((r.hi + 7) / 8))).count : Int) ≤
        truncate (allowedTotal t (c.firstSeenMs.getD t) maxRate initialGraceSeconds) := by
    intro hRate
    have hCount := Bitmap.count_of_interval (by decide) fun i =>
      (bit_setBits_grow (c := c) hLe i).trans (hUnion i)
    have hAllowed := played_within_budget hRate (lt_of_le_of_lt hFrom hForward) hGrace hPace
    rw [hCount, hFirst hRate]
    omega
  rw [report_eq, if_pos hMarks]
  constructor
  · intro i
    rw [bit_markWatched hLe hBudget, hUnion, hrHi]
  · intro hRate
    rw [firstSeenMs_markWatched hRate]
    exact congrArg some (hFirst hRate)

/-- The reports of a playback that has got to `p` go on from there. -/
theorem Played.reports {p0 p1 p : ℚ} {lo : Nat} {c : WatchCoverage} (hp0 : 0 ≤ p0)
    (hLo : (lo : Int) = ⌊p0⌋) (hGrace : p1 - p0 + 2 ≤ initialGraceSeconds)
    (hPlayed : Played maxRate t1 lo ⌈p⌉.toNat c) (hFrom : p0 < p) {played : List (Int × ℚ)}
    (hForward : (p :: played.map Prod.snd).Pairwise (· < ·))
    (hWithin : ∀ s ∈ played, s.2 ≤ durationSec)
    (hPace : ∀ s ∈ played, s.2 - p1 ≤ maxRate * (((s.1 - t1 : Int) : ℚ) / 1000)) :
    Played maxRate t1 lo ⌈lastPosition p played⌉.toNat
      (Kv.reports maxRate initialGraceSeconds c (playback durationSec p played)) := by
  induction played generalizing p c with
  | nil => exact hPlayed
  | cons s played ih =>
    obtain ⟨t, q⟩ := s
    rw [List.map_cons, List.pairwise_cons] at hForward
    have hNext : p < q := hForward.1 q List.mem_cons_self
    have hPos : 0 < ⌈p⌉ := Int.ceil_pos.mpr (lt_of_le_of_lt hp0 hFrom)
    have hFloor : ⌊p⌋ ≤ ⌈p⌉ := Int.floor_le_ceil p
    have hBelow : ⌊p0⌋ < ⌈p⌉ := Int.floor_lt_ceil_of_lt hFrom
    have hUp : ⌈p⌉ ≤ ⌈q⌉ := Int.ceil_le_ceil hNext.le
    have hReport : Played maxRate t1 lo ⌈q⌉.toNat
        (Kv.report maxRate initialGraceSeconds c ⟨p, q, durationSec, t⟩) :=
      Played.report hp0 hLo hPlayed.bits
        (fun hRate => by rw [hPlayed.firstSeenMs hRate, Option.getD_some]) hFrom.le (by omega)
        (by omega) hNext (hWithin (t, q) List.mem_cons_self) (by omega) hGrace
        (hPace (t, q) List.mem_cons_self)
    exact ih hReport (hFrom.trans hNext) hForward.2
      (fun s hs => hWithin s (List.mem_cons_of_mem _ hs))
      (fun s hs => hPace s (List.mem_cons_of_mem _ hs))

/-- A student who plays the video from `p0` on loses no second, whatever the times of the reports
after the first one, as long as the playback keeps to the rate. -/
theorem playback_fully_marked {p0 p1 : ℚ} {later : List (Int × ℚ)} (hp0 : 0 ≤ p0)
    (hForward : (p0 :: p1 :: later.map Prod.snd).Pairwise (· < ·))
    (hWithin : ∀ s ∈ (t1, p1) :: later, s.2 ≤ durationSec)
    (hPace : ∀ s ∈ (t1, p1) :: later, s.2 - p1 ≤ maxRate * (((s.1 - t1 : Int) : ℚ) / 1000))
    (hGrace : p1 - p0 + 2 ≤ initialGraceSeconds) :
    let c := reports maxRate initialGraceSeconds {} (playback durationSec p0 ((t1, p1) :: later))
    let pk := lastPosition p0 ((t1, p1) :: later)
    (∀ i : Nat, c.bitmap.bit i = true ↔ ⌊p0⌋ ≤ i ∧ (i : Int) < ⌈pk⌉) ∧
      watchCoverageFraction durationSec c.bitmap = ((⌈pk⌉ - ⌊p0⌋ : Int) : ℚ) / durationSec := by
  intro c pk
  obtain ⟨last, hLast, hpk⟩ : ∃ s ∈ (t1, p1) :: later, pk = s.2 :=
    lastPosition_mem p0 (t1, p1) later
  have hAhead : ∀ s ∈ (t1, p1) :: later, p0 < s.2 := fun s hs =>
    (List.pairwise_cons.mp hForward).1 s.2 (List.mem_map_of_mem (f := Prod.snd) hs)
  have hNext : p0 < p1 := hAhead (t1, p1) List.mem_cons_self
  have hEnd : p0 < pk := hpk.symm ▸ hAhead last hLast
  have hCeil : ⌈pk⌉ ≤ durationSec := Int.ceil_le.mpr (hpk.symm ▸ hWithin last hLast)
  have hFloor : 0 ≤ ⌊p0⌋ := Int.floor_nonneg.mpr hp0
  have hLo : (⌊p0⌋.toNat : Int) = ⌊p0⌋ := Int.toNat_of_nonneg hFloor
  have hSome : ⌊p0⌋ < ⌈pk⌉ := Int.floor_lt_ceil_of_lt hEnd
  have hUp : ⌊p0⌋ < ⌈p1⌉ := Int.floor_lt_ceil_of_lt hNext
  -- The first report finds an empty record and starts the clock.
  have hReport : Played maxRate t1 ⌊p0⌋.toNat ⌈p1⌉.toNat
      (report maxRate initialGraceSeconds {} ⟨p0, p1, durationSec, t1⟩) := by
    have hEmpty : ∀ i, Bitmap.bit ([] : Bitmap 8) i = true ↔ ⌊p0⌋.toNat ≤ i ∧ i < ⌊p0⌋.toNat := by
      intro i
      rw [Bitmap.bit_nil]
      exact iff_of_false Bool.false_ne_true (by omega)
    exact Played.report hp0 hLo hEmpty (fun _ => rfl) (le_refl p0) (by omega) (fun _ => rfl) hNext
      (hWithin (t1, p1) List.mem_cons_self) (by omega) hGrace (hPace (t1, p1) List.mem_cons_self)
  have hPlayed : Played maxRate t1 ⌊p0⌋.toNat ⌈pk⌉.toNat c :=
    Played.reports hp0 hLo hGrace hReport hNext (List.pairwise_cons.mp hForward).2
      (fun s hs => hWithin s (List.mem_cons_of_mem _ hs))
      (fun s hs => hPace s (List.mem_cons_of_mem _ hs))
  constructor
  · intro i
    rw [hPlayed.bits]
    omega
  · have hCount : (List.range durationSec.toNat).countP c.bitmap.bit =
        ⌈pk⌉.toNat - ⌊p0⌋.toNat := Bitmap.countP_range_of_interval hPlayed.bits (by omega)
    have hLength : ((⌈pk⌉.toNat - ⌊p0⌋.toNat : Nat) : Int) = ⌈pk⌉ - ⌊p0⌋ := by omega
    rw [watchCoverageFraction_eq (by omega), hCount, ← hLength, Int.cast_natCast]

/-- Ten seconds played at once and twenty more reported late. -/
theorem playback_fully_marked_thirty :
    let c := reports 2 12 {} (playback 60 (1 / 2) [(0, 10), (11000, 61 / 2)])
    (∀ i : Nat, c.bitmap.bit i = true ↔ (0 : Int) ≤ i ∧ (i : Int) < 31) ∧
      watchCoverageFraction 60 c.bitmap = 31 / 60 := by
  have hFloor : ⌊(1 / 2 : ℚ)⌋ = 0 := by decide +kernel
  have hCeil : ⌈lastPosition (1 / 2) [(0, 10), (11000, 61 / 2)]⌉ = 31 := by decide +kernel
  have hAll := @playback_fully_marked 2 12 60 0 (1 / 2) 10 [(11000, 61 / 2)] (by norm_num)
    (by norm_num) (by norm_num) (by norm_num) (by norm_num)
  dsimp only at hAll
  rw [hFloor, hCeil] at hAll
  exact ⟨hAll.1, hAll.2.trans (by norm_num)⟩

end Playback

end Richter.Kv
