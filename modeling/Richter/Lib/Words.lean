import Mathlib.Data.List.TakeWhile

/-! The words of a list: its longest parts without separators. -/

namespace Lib

universe u v

variable {α : Type u} (p : α → Bool)

/-- The words between the separators that `p` tells. -/
def words (l : List α) : List (List α) := (l.splitOnP p).filter fun w => !w.isEmpty

variable {p}

@[simp] theorem words_nil : words p [] = [] := by simp [words]

/-- A separator ends a word. -/
theorem words_append_cons (xs ys : List α) {sep : α} (hSep : p sep = true) :
    words p (xs ++ sep :: ys) = words p xs ++ words p ys := by
  rw [words, List.splitOnP_append_cons xs ys hSep, List.filter_append]
  rfl

theorem words_cons {sep : α} (hSep : p sep = true) (ys : List α) :
    words p (sep :: ys) = words p ys := by
  have hSplit := words_append_cons [] ys hSep
  rwa [List.nil_append, words_nil, List.nil_append] at hSplit

theorem words_dropWhile (l : List α) : words p (l.dropWhile p) = words p l := by
  induction l with
  | nil => rfl
  | cons a l ih =>
    by_cases ha : p a = true
    · rw [List.dropWhile_cons_of_pos ha, ih, words_cons ha]
    · rw [List.dropWhile_cons_of_neg ha]

theorem words_eq_nil_of_all {l : List α} (h : ∀ a ∈ l, p a = true) : words p l = [] := by
  induction l with
  | nil => exact words_nil
  | cons a l ih =>
    rw [words_cons (h a (List.mem_cons_self ..))]
    exact ih fun b hb => h b (List.mem_cons_of_mem _ hb)

/-- Separators at the end add no word. -/
theorem words_append_of_all (xs : List α) {ys : List α} (h : ∀ y ∈ ys, p y = true) :
    words p (xs ++ ys) = words p xs := by
  cases ys with
  | nil => rw [List.append_nil]
  | cons y ys =>
    have hRest : words p ys = [] :=
      words_eq_nil_of_all fun b hb => h b (List.mem_cons_of_mem _ hb)
    rw [words_append_cons xs ys (h y (List.mem_cons_self ..)), hRest, List.append_nil]

theorem words_dropEnd (l : List α) : words p (l.reverse.dropWhile p).reverse = words p l := by
  have hAll : ∀ a ∈ (l.reverse.takeWhile p).reverse, p a = true := fun a ha =>
    List.mem_takeWhile_imp (List.mem_reverse.mp ha)
  have hParts : (l.reverse.dropWhile p).reverse ++ (l.reverse.takeWhile p).reverse = l := by
    rw [← List.reverse_append, List.takeWhile_append_dropWhile, List.reverse_reverse]
  calc words p (l.reverse.dropWhile p).reverse
      = words p ((l.reverse.dropWhile p).reverse ++ (l.reverse.takeWhile p).reverse) :=
        (words_append_of_all _ hAll).symm
    _ = words p l := by rw [hParts]

/-- One stretch of separators is as good as another. -/
theorem words_swap_separators (xs zs : List α) {ys ys' : List α} (hSome : ys ≠ [])
    (hSome' : ys' ≠ []) (h : ∀ y ∈ ys, p y = true) (h' : ∀ y ∈ ys', p y = true) :
    words p (xs ++ ys ++ zs) = words p (xs ++ ys' ++ zs) := by
  have hParts : ∀ l : List α, l ≠ [] → (∀ y ∈ l, p y = true) →
      words p (xs ++ l ++ zs) = words p xs ++ words p zs := by
    intro l hl hAll
    obtain ⟨sep, rest, rfl⟩ := List.exists_cons_of_ne_nil hl
    have hRest : words p (rest ++ zs) = words p zs := by
      rw [← words_dropWhile, List.dropWhile_append_of_pos
        fun y hy => hAll y (List.mem_cons_of_mem _ hy), words_dropWhile]
    rw [List.append_assoc, List.cons_append,
      words_append_cons xs _ (hAll sep (List.mem_cons_self ..)), hRest]
  rw [hParts ys hSome h, hParts ys' hSome' h']

theorem splitOnP_map {β : Type v} {q : β → Bool} {f : α → β} (h : ∀ a, q (f a) = p a)
    (l : List α) : (l.map f).splitOnP q = (l.splitOnP p).map fun w => w.map f := by
  induction l with
  | nil => simp
  | cons a l ih =>
    rw [List.map_cons, List.splitOnP_cons_eq_if_modifyHead, List.splitOnP_cons_eq_if_modifyHead,
      h a, ih]
    split
    · rfl
    · cases l.splitOnP p <;> rfl

/-- A map that keeps separators apart from other members maps the words. -/
theorem words_map {β : Type v} {q : β → Bool} {f : α → β} (h : ∀ a, q (f a) = p a) (l : List α) :
    words q (l.map f) = (words p l).map fun w => w.map f := by
  rw [words, words, splitOnP_map h, List.filter_map]
  congr 1
  refine List.filter_congr fun w _ => ?_
  simp

/-- Words that are joined are read back. -/
theorem words_intercalate [BEq α] [LawfulBEq α] {sep : α} {ws : List (List α)}
    (h : ∀ w ∈ ws, sep ∉ w ∧ w ≠ []) : words (· == sep) ([sep].intercalate ws) = ws := by
  by_cases hNone : ws = []
  · subst hNone
    exact words_nil
  · have hSplit : (([sep].intercalate ws).splitOnP (· == sep)) = ws :=
      List.splitOn_intercalate sep (fun w hw => (h w hw).1) hNone
    rw [words, hSplit, List.filter_eq_self]
    intro w hw
    simpa using (h w hw).2

/-- The first separator tells where the first word ends. -/
theorem append_separator_inj {sep : α} {xs xs' ys ys' : List α} (h : sep ∉ xs) (h' : sep ∉ xs') :
    xs ++ sep :: ys = xs' ++ sep :: ys' ↔ xs = xs' ∧ ys = ys' := by
  induction xs generalizing xs' with
  | nil =>
    cases xs' with
    | nil => simp
    | cons b xs' =>
      have hOther : sep ≠ b := fun hEq => h' (hEq ▸ List.mem_cons_self ..)
      simp [hOther]
  | cons a xs ih =>
    have hOther : sep ≠ a := fun hEq => h (hEq ▸ List.mem_cons_self ..)
    cases xs' with
    | nil => simp [hOther.symm]
    | cons b xs' =>
      have hRest := ih (fun hIn => h (List.mem_cons_of_mem a hIn))
        fun hIn => h' (List.mem_cons_of_mem b hIn)
      simp [hRest, and_assoc]

end Lib
