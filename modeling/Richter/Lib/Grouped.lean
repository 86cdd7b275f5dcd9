import Mathlib.Data.List.Dedup
import Mathlib.Data.List.TakeWhile
import Mathlib.Order.Defs.PartialOrder

/-! Lists in which the members with one key stand together. -/

namespace Lib

universe u v

variable {α : Type u} {κ : Type v} (key : α → κ)

/-- What stands between two members with one key has that key. -/
def Grouped (l : List α) : Prop := ∀ x y z, [x, y, z].Sublist l → key x = key z → key y = key x

variable {key} {a b : α} {l l' : List α}

theorem Grouped.sublist (h : Grouped key l) (hSub : l'.Sublist l) : Grouped key l' :=
  fun x y z hXyz => h x y z (hXyz.trans hSub)

/-- A list in the order of its keys is grouped. -/
theorem Grouped.of_sorted [PartialOrder κ] (h : l.Pairwise fun a b => key a ≤ key b) :
    Grouped key l := by
  intro x y z hSub hEq
  have hSorted := h.sublist hSub
  simp only [List.pairwise_cons, List.mem_cons, List.not_mem_nil, or_false] at hSorted
  have hxy : key x ≤ key y := hSorted.1 y (.inl rfl)
  have hyz : key y ≤ key z := hSorted.2.1 z rfl
  exact le_antisymm (hEq ▸ hyz) hxy

variable [DecidableEq κ]

/-- The members with the first one's key end where the first other member stands. -/
theorem Grouped.key_ne (h : Grouped key (a :: l))
    (hb : b ∈ l.dropWhile fun r => key r = key a) : key b ≠ key a := by
  cases hRest : l.dropWhile fun r => key r = key a with
  | nil => simp [hRest] at hb
  | cons d ds =>
    have hd : key d ≠ key a := by
      have := List.head?_dropWhile_not (fun r => decide (key r = key a)) l
      simpa [hRest] using this
    rw [hRest] at hb
    rcases List.mem_cons.mp hb with rfl | hb
    · exact hd
    · intro hEq
      have hSub : [a, d, b].Sublist (a :: l) := by
        refine List.Sublist.cons_cons a (.trans ?_ (List.dropWhile_sublist fun r => key r = key a))
        rw [hRest]
        exact .cons_cons d (List.singleton_sublist.mpr hb)
      exact hd (h a d b hSub hEq.symm)

theorem Grouped.filter_self (h : Grouped key (a :: l)) :
    (a :: l).filter (fun r => key r = key a) = a :: l.takeWhile fun r => key r = key a := by
  have hParts := List.takeWhile_append_dropWhile (p := fun r => decide (key r = key a)) (l := l)
  have hTake : (l.takeWhile fun r => key r = key a).filter (fun r => key r = key a) =
      l.takeWhile fun r => key r = key a :=
    List.filter_eq_self.mpr fun b hb =>
      List.mem_takeWhile_imp (p := fun r => decide (key r = key a)) hb
  have hDrop : (l.dropWhile fun r => key r = key a).filter (fun r => key r = key a) = [] :=
    List.filter_eq_nil_iff.mpr fun b hb => by simpa using h.key_ne hb
  rw [List.filter_cons_of_pos (by simp)]
  conv_lhs => rw [← hParts]
  rw [List.filter_append, hTake, hDrop, List.append_nil]

theorem filter_other {k : κ} (hk : k ≠ key a) :
    (a :: l).filter (fun r => key r = k) =
      (l.dropWhile fun r => key r = key a).filter fun r => key r = k := by
  have hParts := List.takeWhile_append_dropWhile (p := fun r => decide (key r = key a)) (l := l)
  have hTake : (l.takeWhile fun r => key r = key a).filter (fun r => key r = k) = [] := by
    refine List.filter_eq_nil_iff.mpr fun b hb => ?_
    have : key b = key a := by simpa using List.mem_takeWhile_imp hb
    simpa [this] using Ne.symm hk
  rw [List.filter_cons_of_neg (by simpa using Ne.symm hk)]
  conv_lhs => rw [← hParts]
  rw [List.filter_append, hTake, List.nil_append]

theorem dedup_cons_replicate (k : κ) (ks ls : List κ) (hks : ∀ x ∈ ks, x = k) :
    (k :: (ks ++ ls)).dedup = (k :: ls).dedup := by
  induction ks with
  | nil => rfl
  | cons x ks ih =>
    obtain rfl := hks x (by simp)
    rw [List.cons_append, List.dedup_cons_of_mem (by simp), ih fun y hy => hks y (by simp [hy])]

/-- The keys of a grouped list come in the order of its groups. -/
theorem Grouped.dedup (h : Grouped key (a :: l)) : ((a :: l).map key).dedup =
    key a :: ((l.dropWhile fun r => key r = key a).map key).dedup := by
  have hParts := List.takeWhile_append_dropWhile (p := fun r => decide (key r = key a)) (l := l)
  have hRest : key a ∉ (l.dropWhile fun r => key r = key a).map key := by
    intro hMem
    obtain ⟨b, hb, hEq⟩ := List.mem_map.mp hMem
    exact h.key_ne hb hEq
  have hTake : ∀ k ∈ (l.takeWhile fun r => key r = key a).map key, k = key a := by
    intro k hk
    obtain ⟨b, hb, rfl⟩ := List.mem_map.mp hk
    simpa using List.mem_takeWhile_imp hb
  rw [List.map_cons]
  conv_lhs => rw [← hParts]
  rw [List.map_append, dedup_cons_replicate _ _ _ hTake, List.dedup_cons_of_notMem hRest]

end Lib
