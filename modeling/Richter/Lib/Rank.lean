import Mathlib.Data.List.Nodup
import Mathlib.Data.List.Range
import Mathlib.Data.List.Sort

/-! The number of each row in the order of a column: `ROW_NUMBER() OVER (ORDER BY ..) - 1`. -/

namespace Lib

universe u v

variable {ρ : Type u} {κ : Type v} (key : ρ → κ) (le : ρ → ρ → Prop) [DecidableRel le]

/-- The keys of the rows in their order. -/
def rankedKeys (rows : List ρ) : List κ := (rows.insertionSort le).map key

def rowNumber [DecidableEq κ] (rows : List ρ) (k : κ) : Nat := (rankedKeys key le rows).idxOf k

variable {key le} {rows : List ρ}

theorem rankedKeys_perm : (rankedKeys key le rows).Perm (rows.map key) :=
  (List.perm_insertionSort le rows).map key

theorem rankedKeys_nodup (h : (rows.map key).Nodup) : (rankedKeys key le rows).Nodup :=
  rankedKeys_perm.nodup_iff.mpr h

variable [DecidableEq κ]

/-- The positions of the members of a list without duplicates. -/
theorem map_idxOf_of_nodup {l : List κ} (h : l.Nodup) :
    l.map (fun k => l.idxOf k) = List.range l.length := by
  refine List.ext_getElem (by simp) fun i hi hi' => ?_
  rw [List.getElem_map, List.getElem_range, h.idxOf_getElem]

/-- The rows are numbered from zero on. -/
theorem rowNumber_perm (h : (rows.map key).Nodup) :
    (rows.map fun r => rowNumber key le rows (key r)).Perm (List.range rows.length) := by
  have hKeys : ((rankedKeys key le rows).map (rowNumber key le rows)).Perm
      ((rows.map key).map (rowNumber key le rows)) := rankedKeys_perm.map _
  have hPositions : (rankedKeys key le rows).map (rowNumber key le rows) =
      List.range (rankedKeys key le rows).length := map_idxOf_of_nodup (rankedKeys_nodup h)
  rw [hPositions, rankedKeys_perm.length_eq, List.length_map, List.map_map] at hKeys
  exact hKeys.symm

/-- A row that is not after another one in the order has the smaller number. -/
theorem rowNumber_lt [Std.Total le] [IsTrans ρ le] (h : (rows.map key).Nodup) {r r' : ρ}
    (hr : r ∈ rows) (hr' : r' ∈ rows) (hLt : ¬le r' r) :
    rowNumber key le rows (key r) < rowNumber key le rows (key r') := by
  have hSorted : (rows.insertionSort le).Pairwise le := List.pairwise_insertionSort le rows
  have hNodup : (rankedKeys key le rows).Nodup := rankedKeys_nodup h
  obtain ⟨i, hi, rfl⟩ := List.getElem_of_mem ((List.mem_insertionSort le).mpr hr)
  obtain ⟨j, hj, rfl⟩ := List.getElem_of_mem ((List.mem_insertionSort le).mpr hr')
  have hNumber : ∀ n (hn : n < (rows.insertionSort le).length),
      rowNumber key le rows (key (rows.insertionSort le)[n]) = n := by
    intro n hn
    have hn' : n < (rankedKeys key le rows).length := by simpa [rankedKeys] using hn
    have hGet : key (rows.insertionSort le)[n] = (rankedKeys key le rows)[n] := by
      simp [rankedKeys]
    rw [rowNumber, hGet, hNodup.idxOf_getElem]
  rw [hNumber i hi, hNumber j hj]
  rcases Nat.lt_trichotomy i j with hij | hij | hij
  · exact hij
  · subst hij
    exact absurd ((Std.Total.total _ _).elim id id) hLt
  · exact absurd (List.pairwise_iff_getElem.mp hSorted j i hj hi hij) hLt

end Lib
