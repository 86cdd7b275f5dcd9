import Mathlib.Algebra.BigOperators.Group.List.Basic
import Mathlib.Algebra.Ring.Int.Defs
import Mathlib.Data.List.Nodup
import Mathlib.Data.List.Perm.Basic
import Mathlib.Logic.Function.Basic

/-! Maps that a loop over rows fills: from each key to the rows with it, and from each key to the
count of its row. -/

namespace Lib

variable {ρ κ : Type} [DecidableEq κ] (key : ρ → κ)

/-- One round of a loop that collects the rows of each key. -/
def collect (m : κ → List ρ) (r : ρ) : κ → List ρ := Function.update m (key r) (m (key r) ++ [r])

theorem foldl_collect (rows : List ρ) (m : κ → List ρ) (k : κ) :
    rows.foldl (collect key) m k = m k ++ rows.filter fun r => key r = k := by
  induction rows generalizing m with
  | nil => simp
  | cons r rows ih =>
    rw [List.foldl_cons, ih, collect]
    by_cases hKey : key r = k
    · subst hKey
      simp
    · simp [hKey, Function.update_of_ne (Ne.symm hKey)]

variable (count : ρ → Int)

/-- One round of a loop that records the count of each key. -/
def record (m : κ → Int) (r : ρ) : κ → Int := Function.update m (key r) (count r)

variable {key} {rows : List ρ}

theorem foldl_record_of_notMem {m : κ → Int} {k : κ} (h : k ∉ rows.map key) :
    rows.foldl (record key count) m k = m k := by
  induction rows generalizing m with
  | nil => rfl
  | cons r rows ih =>
    rw [List.map_cons, List.mem_cons, not_or] at h
    rw [List.foldl_cons, ih h.2, record, Function.update_of_ne h.1]

theorem foldl_record_of_mem (hNodup : (rows.map key).Nodup) {m : κ → Int} {r : ρ}
    (hr : r ∈ rows) : rows.foldl (record key count) m (key r) = count r := by
  induction rows generalizing m with
  | nil => cases hr
  | cons a rows ih =>
    rw [List.map_cons, List.nodup_cons] at hNodup
    rw [List.foldl_cons]
    rcases List.mem_cons.mp hr with rfl | hr
    · rw [foldl_record_of_notMem count hNodup.1, record, Function.update_self]
    · exact ih hNodup.2 hr

theorem foldl_record_congr {m m' : κ → Int} {k : κ} (h : m k = m' k) :
    rows.foldl (record key count) m k = rows.foldl (record key count) m' k := by
  induction rows generalizing m m' with
  | nil => exact h
  | cons r rows ih =>
    refine ih ?_
    by_cases hKey : k = key r
    · simp [record, hKey]
    · simp [record, Function.update_of_ne hKey, h]

/-- Over keys without duplicates the recorded counts add up to the counts of their rows. -/
theorem sum_foldl_record (hRows : (rows.map key).Nodup) {keys : List κ} (hKeys : keys.Nodup) :
    (keys.map (rows.foldl (record key count) fun _ => 0)).sum =
      ((rows.filter fun r => key r ∈ keys).map count).sum := by
  induction rows with
  | nil => simp
  | cons r rows ih =>
    rw [List.map_cons, List.nodup_cons] at hRows
    have hRow : ∀ k, (r :: rows).foldl (record key count) (fun _ => 0) k =
        if k = key r then count r else rows.foldl (record key count) (fun _ => 0) k := by
      intro k
      rw [List.foldl_cons]
      split
      · next hKey =>
        rw [hKey, foldl_record_of_notMem count hRows.1, record, Function.update_self]
      · next hKey => exact foldl_record_congr count (Function.update_of_ne hKey _ _)
    have hFresh : rows.foldl (record key count) (fun _ => 0) (key r) = 0 :=
      foldl_record_of_notMem count hRows.1
    rw [List.map_congr_left fun k _ => hRow k, List.sum_map_ite_eq, ih hRows.2, hFresh]
    by_cases hMem : key r ∈ keys
    · simp [hMem, List.count_eq_one_of_mem hKeys hMem]
    · simp [hMem, List.count_eq_zero_of_not_mem hMem]

end Lib
