import Mathlib.Data.List.Basic

/-! `List.mapM` over calls that may have no result: it has one just when every call has. -/

namespace Lib

universe u v

variable {α : Type u} {β : Type v} {f : α → Option β} {l : List α}

theorem mapM_eq_some_map {g : α → β} (h : ∀ a ∈ l, f a = some (g a)) :
    l.mapM f = some (l.map g) := by
  induction l with
  | nil => rfl
  | cons a l ih =>
    rw [List.forall_mem_cons] at h
    simp [List.mapM_cons, h.1, ih h.2]

theorem mapM_eq_none {a : α} (ha : a ∈ l) (h : f a = none) : l.mapM f = none := by
  induction l with
  | nil => cases ha
  | cons c l ih =>
    rw [List.mapM_cons]
    rcases List.mem_cons.mp ha with rfl | ha
    · rw [h]
      rfl
    · rw [ih ha]
      cases f c <;> rfl

theorem length_of_mapM_eq_some {l' : List β} (h : l.mapM f = some l') :
    l'.length = l.length := by
  induction l generalizing l' with
  | nil =>
    cases h
    rfl
  | cons a l ih =>
    rw [List.mapM_cons] at h
    obtain ⟨b, -, hRest⟩ := Option.bind_eq_some_iff.mp h
    obtain ⟨bs, hTail, hEq⟩ := Option.bind_eq_some_iff.mp hRest
    cases hEq
    rw [List.length_cons, List.length_cons, ih hTail]

end Lib
