import Mathlib.Data.List.Nodup

/-! Loops over a list that keep one element of it: the last one with a key, and the first of the
greatest ones that meet a condition. -/

namespace Lib

variable {α β κ : Type}

section Last

variable [DecidableEq κ] (key : α → κ) (f : α → β) (k : κ)

/-- One round of a loop that keeps the last element with the key `k`. -/
def keepLast (b : Option β) (a : α) : Option β := if key a = k then some (f a) else b

/-- What the loop has kept comes from an element with the key. -/
theorem foldl_keepLast_mem {xs : List α} {b : Option β} {y : β}
    (h : xs.foldl (keepLast key f k) b = some y) :
    (∃ a ∈ xs, key a = k ∧ f a = y) ∨ b = some y := by
  induction xs generalizing b with
  | nil => exact .inr h
  | cons a xs ih =>
    rcases ih h with ⟨u, hMem, hu⟩ | hHead
    · exact .inl ⟨u, List.mem_cons_of_mem a hMem, hu⟩
    · unfold keepLast at hHead
      split at hHead
      · next hKey => exact .inl ⟨a, List.mem_cons_self, hKey, Option.some.inj hHead⟩
      · exact .inr hHead

/-- Where each key occurs once, the last element with a key is the only one. -/
theorem foldl_keepLast_eq_some_iff {xs : List α} (hNodup : (xs.map key).Nodup) {b : Option β}
    {y : β} : xs.foldl (keepLast key f k) b = some y ↔
      (∃ a ∈ xs, key a = k ∧ f a = y) ∨ (b = some y ∧ ∀ a ∈ xs, key a ≠ k) := by
  induction xs generalizing b with
  | nil => simp
  | cons a xs ih =>
    rw [List.map_cons, List.nodup_cons] at hNodup
    rw [List.foldl_cons, ih hNodup.2]
    by_cases hKey : key a = k
    · have hRest : ∀ u ∈ xs, key u ≠ k := fun u hu hEq =>
        hNodup.1 (List.mem_map.mpr ⟨u, hu, by rw [hEq, hKey]⟩)
      have hNone : ¬ ∃ u ∈ xs, key u = k ∧ f u = y := fun ⟨u, hu, hEq, _⟩ => hRest u hu hEq
      simpa [keepLast, hKey, hNone] using fun _ => hRest
    · simp [keepLast, hKey]

end Last

section Greatest

variable (p : α → Bool) (gt : α → α → Bool)

/-- One round of a loop that keeps the first of the greatest elements that meet `p`. -/
def keepGreatest (b : Option α) (a : α) : Option α := if p a && b.all (gt a) then some a else b

variable {p gt} {a r : α} {b : Option α}

theorem keepGreatest_cases (h : keepGreatest p gt b a = some r) :
    (p a = true ∧ r = a) ∨ b = some r := by
  unfold keepGreatest at h
  split at h
  · next hTaken =>
    rw [Bool.and_eq_true] at hTaken
    exact .inl ⟨hTaken.1, (Option.some.inj h).symm⟩
  · exact .inr h

theorem foldl_keepGreatest_mem {xs : List α} (h : xs.foldl (keepGreatest p gt) b = some r) :
    (r ∈ xs ∧ p r = true) ∨ b = some r := by
  induction xs generalizing b with
  | nil => exact .inr h
  | cons a xs ih =>
    rcases ih h with ⟨hMem, hp⟩ | hHead
    · exact .inl ⟨List.mem_cons_of_mem a hMem, hp⟩
    · rcases keepGreatest_cases hHead with ⟨hp, rfl⟩ | hb
      · exact .inl ⟨List.mem_cons_self, hp⟩
      · exact .inr hb

variable (gt) in
theorem foldl_keepGreatest_isSome {xs : List α} (h : (∃ a ∈ xs, p a = true) ∨ b.isSome = true) :
    (xs.foldl (keepGreatest p gt) b).isSome = true := by
  induction xs generalizing b with
  | nil => simpa using h
  | cons a xs ih =>
    refine ih ?_
    show _ ∨ (keepGreatest p gt b a).isSome = true
    rcases h with ⟨c, hMem, hp⟩ | hSome
    · rcases List.mem_cons.mp hMem with rfl | hMem
      · refine .inr ?_
        cases b with
        | none => simp [keepGreatest, hp]
        | some b => cases hGt : gt c b <;> simp [keepGreatest, hp, hGt]
      · exact .inl ⟨c, hMem, hp⟩
    · refine .inr ?_
      unfold keepGreatest
      split
      · rfl
      · exact hSome

/-- No element that meets `p` is greater than the one that the loop has kept, where not being
greater is an order. -/
theorem foldl_keepGreatest_max (hRefl : ∀ a, gt a a = false)
    (hAsymm : ∀ a b, gt a b = true → gt b a = false)
    (hTrans : ∀ a b c, gt a b = false → gt b c = false → gt a c = false) {xs : List α}
    (h : xs.foldl (keepGreatest p gt) b = some r) :
    (∀ a ∈ xs, p a = true → gt a r = false) ∧ ∀ c, b = some c → gt c r = false := by
  induction xs generalizing b with
  | nil =>
    refine ⟨nofun, fun c hc => ?_⟩
    rw [show b = some r from h] at hc
    cases hc
    exact hRefl r
  | cons a xs ih =>
    obtain ⟨hRest, hHeld⟩ := ih h
    rw [List.forall_mem_cons]
    unfold keepGreatest at hHeld
    by_cases hTaken : (p a && b.all (gt a)) = true
    · rw [if_pos hTaken] at hHeld
      rw [Bool.and_eq_true] at hTaken
      have hHead : gt a r = false := hHeld a rfl
      refine ⟨⟨fun _ => hHead, hRest⟩, fun c hc => ?_⟩
      have hGreater : gt a c = true := by simpa [hc] using hTaken.2
      exact hTrans c a r (hAsymm a c hGreater) hHead
    · rw [if_neg hTaken] at hHeld
      refine ⟨⟨fun hp => ?_, hRest⟩, hHeld⟩
      -- `a` was passed over, so that it is not greater than the element held at the time.
      cases b with
      | none => simp [hp] at hTaken
      | some b =>
        have hNot : gt a b = false := by simpa [hp] using hTaken
        exact hTrans a b r hNot (hHeld b rfl)

end Greatest

end Lib
