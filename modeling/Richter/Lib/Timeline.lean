import Mathlib.Order.Basic
import Mathlib.Order.Lattice

/-! Named half-open intervals that are proper and do not overlap, and what keeps them so: leaving
one out, putting one where none of the others reaches, and cutting a window in two. -/

namespace Lib

universe u v

/-- The interval `[a, b)` of each name that has one. -/
abbrev Spans (ι : Type u) (α : Type v) := ι → Option (α × α)

namespace Spans

variable {ι : Type u} {α : Type v}

section Set

variable [DecidableEq ι]

/-- The interval of one name is replaced. -/
def set (s : Spans ι α) (i : ι) (x : Option (α × α)) : Spans ι α := Function.update s i x

@[simp] theorem set_self (s : Spans ι α) (i : ι) (x : Option (α × α)) : s.set i x i = x :=
  Function.update_self ..

theorem set_of_ne (s : Spans ι α) {i j : ι} (x : Option (α × α)) (h : j ≠ i) : s.set i x j = s j :=
  Function.update_of_ne h ..

theorem set_eq_self {s : Spans ι α} {i : ι} {x : Option (α × α)} (h : s i = x) : s.set i x = s := by
  rw [← h]
  exact Function.update_eq_self i s

end Set

variable [LinearOrder α]

/-- The intervals are proper, and no two of them overlap. -/
structure Timeline (s : Spans ι α) : Prop where
  proper : ∀ i a b, s i = some (a, b) → a < b
  apart : ∀ i j a b c d, i ≠ j → s i = some (a, b) → s j = some (c, d) → b ≤ c ∨ d ≤ a

/-- None of the intervals under a name outside of `own` reaches into `[lo, hi)`. -/
def Clear (s : Spans ι α) (own : ι → Prop) (lo hi : α) : Prop :=
  ∀ k a b, ¬own k → s k = some (a, b) → b ≤ lo ∨ hi ≤ a

variable {s t : Spans ι α}

/-- A window within a clear one is clear, also when more names are its own. -/
theorem Clear.mono {own own' : ι → Prop} {lo hi lo' hi' : α} (h : s.Clear own lo hi)
    (hOwn : ∀ k, own k → own' k) (hLo : lo ≤ lo') (hHi : hi' ≤ hi) : s.Clear own' lo' hi' := by
  intro k a b hk hSpan
  rcases h k a b (fun hOld => hk (hOwn k hOld)) hSpan with hBefore | hAfter
  · exact .inl (le_trans hBefore hLo)
  · exact .inr (le_trans hHi hAfter)

/-- None of the others reaches into an interval of a timeline. -/
theorem Timeline.clear (h : s.Timeline) {i : ι} {lo hi : α} (hSpan : s i = some (lo, hi)) :
    s.Clear (· = i) lo hi := fun k a b hk hOther => h.apart k i a b lo hi hk hOther hSpan

/-- Fewer intervals. -/
theorem Timeline.sub (h : s.Timeline) (hSub : ∀ i x, t i = some x → s i = some x) : t.Timeline where
  proper i a b hi := h.proper i a b (hSub i _ hi)
  apart i j a b c d hij hi hj := h.apart i j a b c d hij (hSub i _ hi) (hSub j _ hj)

/-- Some interval contains the point. -/
def Covered (s : Spans ι α) (x : α) : Prop := ∃ i a b, s i = some (a, b) ∧ a ≤ x ∧ x < b

variable [DecidableEq ι]

/-- An interval that is cut in two, of which the second part gets a new name, covers what it did. -/
theorem covered_cut {i j : ι} {lo mid hi x : α} (hi' : s i = some (lo, hi)) (hj : s j = none)
    (hLo : lo ≤ mid) (hHi : mid ≤ hi) :
    ((s.set i (some (lo, mid))).set j (some (mid, hi))).Covered x ↔ s.Covered x := by
  have hNe : i ≠ j := by
    rintro rfl
    rw [hj] at hi'
    cases hi'
  constructor
  · rintro ⟨k, a, b, hk, hStart, hEnd⟩
    by_cases hkj : k = j
    · rw [hkj, set_self] at hk
      cases hk
      exact ⟨i, lo, hi, hi', le_trans hLo hStart, hEnd⟩
    · rw [set_of_ne _ _ hkj] at hk
      by_cases hki : k = i
      · rw [hki, set_self] at hk
        cases hk
        exact ⟨i, lo, hi, hi', hStart, lt_of_lt_of_le hEnd hHi⟩
      · rw [set_of_ne _ _ hki] at hk
        exact ⟨k, a, b, hk, hStart, hEnd⟩
  · rintro ⟨k, a, b, hk, hStart, hEnd⟩
    by_cases hki : k = i
    · rw [hki, hi'] at hk
      cases hk
      rcases lt_or_ge x mid with hBefore | hAfter
      · exact ⟨i, lo, mid, by rw [set_of_ne _ _ hNe, set_self], hStart, hBefore⟩
      · exact ⟨j, mid, hi, set_self _ _ _, hAfter, hEnd⟩
    · refine ⟨k, a, b, ?_, hStart, hEnd⟩
      have hkj : k ≠ j := by
        rintro rfl
        rw [hj] at hk
        cases hk
      rw [set_of_ne _ _ hkj, set_of_ne _ _ hki, hk]

theorem Timeline.erase (h : s.Timeline) (i : ι) : (s.set i none).Timeline := by
  refine h.sub fun j x hj => ?_
  by_cases hji : j = i
  · rw [hji, set_self] at hj
    cases hj
  · rwa [set_of_ne s none hji] at hj

/-- One interval goes where none of the others reaches. -/
theorem Timeline.put (h : s.Timeline) {i : ι} {lo hi : α} (hProper : lo < hi)
    (hClear : s.Clear (· = i) lo hi) : (s.set i (some (lo, hi))).Timeline := by
  constructor
  · intro j a b hj
    by_cases hji : j = i
    · rw [hji, set_self] at hj
      cases hj
      exact hProper
    · rw [set_of_ne s _ hji] at hj
      exact h.proper j a b hj
  · intro j k a b c d hjk hj hk
    by_cases hji : j = i <;> by_cases hki : k = i
    · exact absurd (hji.trans hki.symm) hjk
    · rw [hji, set_self] at hj
      cases hj
      rw [set_of_ne s _ hki] at hk
      exact (hClear k c d hki hk).symm
    · rw [hki, set_self] at hk
      cases hk
      rw [set_of_ne s _ hji] at hj
      exact hClear j a b hji hj
    · rw [set_of_ne s _ hji] at hj
      rw [set_of_ne s _ hki] at hk
      exact h.apart j k a b c d hjk hj hk

/-- A window that only the intervals `i` and `j` reach into is cut in two between them. -/
theorem Timeline.cut (h : s.Timeline) {i j : ι} {lo mid hi : α} (hLo : lo < mid)
    (hHi : mid < hi) (hClear : s.Clear (fun k => k = i ∨ k = j) lo hi) :
    ((s.set i (some (lo, mid))).set j (some (mid, hi))).Timeline := by
  have hErased : (s.set j none).Timeline := h.erase j
  have hFirst : ((s.set j none).set i (some (lo, mid))).Timeline := by
    refine hErased.put hLo fun k a b hki hk => ?_
    by_cases hkj : k = j
    · rw [hkj, set_self] at hk
      cases hk
    · rw [set_of_ne s _ hkj] at hk
      rcases hClear k a b (not_or.mpr ⟨hki, hkj⟩) hk with hBefore | hAfter
      · exact .inl hBefore
      · exact .inr (le_trans hHi.le hAfter)
  have hOrder : (s.set i (some (lo, mid))).set j (some (mid, hi)) =
      ((s.set j none).set i (some (lo, mid))).set j (some (mid, hi)) := by
    funext k
    by_cases hkj : k = j
    · rw [hkj, set_self, set_self]
    · rw [set_of_ne _ _ hkj, set_of_ne _ _ hkj]
      by_cases hki : k = i
      · rw [hki, set_self, set_self]
      · rw [set_of_ne _ _ hki, set_of_ne _ _ hki, set_of_ne _ _ hkj]
  rw [hOrder]
  refine hFirst.put hHi fun k a b hkj hk => ?_
  by_cases hki : k = i
  · rw [hki, set_self] at hk
    cases hk
    exact .inl le_rfl
  · rw [set_of_ne _ _ hki, set_of_ne _ _ hkj] at hk
    rcases hClear k a b (not_or.mpr ⟨hki, hkj⟩) hk with hBefore | hAfter
    · exact .inl (le_trans hBefore hLo.le)
    · exact .inr hAfter

/-- The interval `i` grows over a window that apart from it only `j` reaches into, and `j` is
left out. -/
theorem Timeline.absorb (h : s.Timeline) {i j : ι} {lo hi : α} (hProper : lo < hi)
    (hClear : s.Clear (fun k => k = i ∨ k = j) lo hi) :
    ((s.set j none).set i (some (lo, hi))).Timeline := by
  refine (h.erase j).put hProper fun k a b hki hk => ?_
  by_cases hkj : k = j
  · rw [hkj, set_self] at hk
    cases hk
  · rw [set_of_ne s _ hkj] at hk
    exact hClear k a b (not_or.mpr ⟨hki, hkj⟩) hk

end Spans

end Lib
