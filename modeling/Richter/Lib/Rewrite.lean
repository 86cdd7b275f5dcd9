import Mathlib.Data.List.Chain
import Mathlib.Data.List.DropRight
import Mathlib.Data.List.TakeWhile

/-! Rewriting passes over a list: the runs of members that meet a condition are replaced, and what
meets a condition is cut off at both ends. -/

namespace Lib

universe u

variable {α : Type u}

section Runs

variable (p : α → Bool) (n : Nat) (f : List α → List α)

/-- The text for a run: a run of less than `n` members stays. -/
def replaceRun (run : List α) : List α := if n ≤ run.length then f run else run

/-- `replaceRuns` with the run that it is in. -/
def replaceRunsFrom : List α → List α → List α
  | run, [] => replaceRun n f run
  | run, a :: l =>
    if p a then replaceRunsFrom (run ++ [a]) l else replaceRun n f run ++ a :: replaceRunsFrom [] l

/-- Every longest run of members that meet `p`, if it has `n` members or more, becomes `f` of it. -/
def replaceRuns (l : List α) : List α := replaceRunsFrom p n f [] l

variable {p n f} {run l : List α} {a c : α}

theorem mem_replaceRun (hRun : ∀ b ∈ run, p b = true) (h : c ∈ replaceRun n f run) :
    (c ∈ run ∧ 1 < n) ∨ ∃ r, (∀ b ∈ r, p b = true) ∧ c ∈ f r := by
  unfold replaceRun at h
  split at h
  · exact .inr ⟨run, hRun, h⟩
  · have := List.length_pos_of_mem h
    exact .inl ⟨h, by omega⟩

theorem mem_replaceRunsFrom (hRun : ∀ b ∈ run, p b = true) (h : c ∈ replaceRunsFrom p n f run l) :
    (c ∈ run ++ l ∧ (p c = false ∨ 1 < n)) ∨ ∃ r, (∀ b ∈ r, p b = true) ∧ c ∈ f r := by
  induction l generalizing run with
  | nil =>
    rcases mem_replaceRun hRun h with ⟨hc, hn⟩ | hNew
    · exact .inl ⟨by simpa using hc, .inr hn⟩
    · exact .inr hNew
  | cons a l ih =>
    unfold replaceRunsFrom at h
    split at h
    · next ha =>
      have hRun' : ∀ b ∈ run ++ [a], p b = true := by
        simpa [or_imp, forall_and, ha] using hRun
      simpa using ih hRun' h
    · next ha =>
      rw [Bool.not_eq_true] at ha
      rcases List.mem_append.mp h with h | h
      · rcases mem_replaceRun hRun h with ⟨hc, hn⟩ | hNew
        · exact .inl ⟨by simp [hc], .inr hn⟩
        · exact .inr hNew
      · rcases List.mem_cons.mp h with rfl | h
        · exact .inl ⟨by simp, .inl ha⟩
        · rcases ih (by simp) h with ⟨hc, hKept⟩ | hNew
          · rw [List.nil_append] at hc
            exact .inl ⟨by simp [hc], hKept⟩
          · exact .inr hNew

/-- What a pass leaves in a list: members that were there, of short runs or of none, and members of
what it has put in. -/
theorem mem_replaceRuns (h : c ∈ replaceRuns p n f l) :
    (c ∈ l ∧ (p c = false ∨ 1 < n)) ∨ ∃ r, (∀ b ∈ r, p b = true) ∧ c ∈ f r := by
  simpa using mem_replaceRunsFrom (List.forall_mem_nil _) h

/-- Without a run there is nothing to replace. -/
theorem replaceRuns_of_none (hn : 0 < n) (h : ∀ b ∈ l, p b = false) : replaceRuns p n f l = l := by
  have hEmpty : replaceRun n f [] = [] := by simp [replaceRun, Nat.not_le.mpr hn]
  unfold replaceRuns
  induction l with
  | nil => exact hEmpty
  | cons a l ih =>
    rw [replaceRunsFrom, if_neg (by simp [h a (List.mem_cons_self ..)]), hEmpty,
      ih fun b hb => h b (List.mem_cons_of_mem a hb), List.nil_append]

end Runs

section Squeeze

variable {p : α → Bool} {run l : List α} {sep : α}

/-- Two members in a row that meet `p` do not occur. -/
def NoPair (p : α → Bool) (l : List α) : Prop := l.IsChain fun a b => ¬ (p a = true ∧ p b = true)

theorem replaceRun_noPair (run : List α) : NoPair p (replaceRun 2 (fun _ => [sep]) run) := by
  unfold replaceRun
  split
  · exact List.isChain_singleton sep
  · next hShort =>
    match run, hShort with
    | [], _ => exact List.isChain_nil
    | [a], _ => exact List.isChain_singleton a
    | a :: b :: rest, hShort => exact absurd (by simp) hShort

theorem replaceRunsFrom_noPair : NoPair p (replaceRunsFrom p 2 (fun _ => [sep]) run l) := by
  induction l generalizing run with
  | nil => exact replaceRun_noPair run
  | cons a l ih =>
    unfold replaceRunsFrom
    split
    · exact ih
    · next ha =>
      refine List.isChain_append.mpr ⟨replaceRun_noPair run, List.isChain_cons.mpr ⟨?_, ih⟩, ?_⟩
      · exact fun _ _ hBoth => ha hBoth.1
      · intro x _ y hy hBoth
        rw [List.head?_cons, Option.mem_some_iff] at hy
        exact ha (hy ▸ hBoth.2)

/-- Longer runs are squeezed into one member. -/
theorem replaceRuns_noPair (l : List α) : NoPair p (replaceRuns p 2 (fun _ => [sep]) l) :=
  replaceRunsFrom_noPair

theorem replaceRun_of_noPair (hRun : ∀ b ∈ run, p b = true) (h : NoPair p run)
    (f : List α → List α) : replaceRun 2 f run = run := by
  unfold replaceRun
  rw [if_neg]
  intro hLong
  match run, hLong with
  | a :: b :: rest, _ =>
    exact (List.isChain_cons_cons.mp h).1 ⟨hRun a (by simp), hRun b (by simp)⟩

theorem replaceRunsFrom_of_noPair (hRun : ∀ b ∈ run, p b = true) (h : NoPair p (run ++ l))
    (f : List α → List α) : replaceRunsFrom p 2 f run l = run ++ l := by
  induction l generalizing run with
  | nil =>
    rw [List.append_nil] at h ⊢
    exact replaceRun_of_noPair hRun h f
  | cons a l ih =>
    unfold replaceRunsFrom
    split
    · next ha =>
      have hMove : run ++ a :: l = run ++ [a] ++ l := List.append_cons ..
      rw [hMove] at h ⊢
      exact ih (by simpa [or_imp, forall_and, ha] using hRun) h
    · have hParts := List.isChain_append.mp h
      have hRest := @ih [] (by simp) (List.isChain_cons.mp hParts.2.1).2
      rw [replaceRun_of_noPair hRun hParts.1 f, hRest, List.nil_append]

theorem replaceRuns_of_noPair (h : NoPair p l) (f : List α → List α) : replaceRuns p 2 f l = l :=
  replaceRunsFrom_of_noPair (by simp) h f

end Squeeze

section Trim

variable (p : α → Bool)

/-- What is left when the members that meet `p` are cut off at both ends. -/
def trim (l : List α) : List α := (l.dropWhile p).rdropWhile p

/-- There is no member that meets `p` at either end. -/
structure Trimmed (l : List α) : Prop where
  head : ∀ a ∈ l.head?, p a = false
  last : ∀ a ∈ l.getLast?, p a = false

variable {p} {l : List α}

theorem infix_trim (l : List α) : trim p l <:+: l :=
  (List.rdropWhile_prefix p (l.dropWhile p)).isInfix.trans (List.dropWhile_suffix p).isInfix

theorem trim_trimmed (l : List α) : Trimmed p (trim p l) where
  head a ha := by
    obtain ⟨rest, hRest⟩ := List.rdropWhile_prefix p (l.dropWhile p)
    have hHead : (l.dropWhile p).head? = some a := by
      rw [← hRest, List.head?_append,
        show (List.rdropWhile p (l.dropWhile p)).head? = some a from ha]
      rfl
    have := List.head?_dropWhile_not p l
    rwa [hHead] at this
  last a ha := by
    have hSome : trim p l ≠ [] := by
      intro hNil
      rw [hNil] at ha
      cases ha
    rw [List.getLast?_eq_some_getLast hSome, Option.mem_some_iff] at ha
    have := List.rdropWhile_last_not p (l.dropWhile p) hSome
    rw [← ha]
    exact (Bool.not_eq_true _).mp this

theorem Trimmed.trim_eq (h : Trimmed p l) : trim p l = l := by
  have hFront : l.dropWhile p = l := by
    cases l with
    | nil => rfl
    | cons a l => exact List.dropWhile_cons_of_neg (by simp [h.head a rfl])
  rw [trim, hFront, List.rdropWhile_eq_self_iff]
  intro hSome
  have := h.last (l.getLast hSome) (List.getLast?_eq_some_getLast hSome)
  simp [this]

/-- What is cut off around a trimmed list. -/
theorem Trimmed.trim_append {w w' : List α} (h : Trimmed p l) (hSome : l ≠ [])
    (hw : ∀ a ∈ w, p a = true) (hw' : ∀ a ∈ w', p a = true) : trim p (w ++ l ++ w') = l := by
  obtain ⟨a, rest, rfl⟩ := List.exists_cons_of_ne_nil hSome
  have hFirst : p a = false := h.head a rfl
  have hFront : (w ++ a :: rest ++ w').dropWhile p = a :: rest ++ w' := by
    rw [List.append_assoc, List.dropWhile_append_of_pos hw]
    exact List.dropWhile_cons_of_neg (by simp [hFirst])
  have hBack : (a :: rest ++ w').rdropWhile p = (a :: rest).rdropWhile p := by
    rw [List.rdropWhile, List.reverse_append, List.dropWhile_append_of_pos]
    · rfl
    · exact fun b hb => hw' b (List.mem_reverse.mp hb)
  have hOnly := h.trim_eq
  rw [trim, List.dropWhile_cons_of_neg (by simp [hFirst])] at hOnly
  rw [trim, hFront, hBack, hOnly]

/-- Only the ends of a list count. -/
theorem Trimmed.append {m l' : List α} (h : Trimmed p l) (h' : Trimmed p l') (hl : l ≠ [])
    (hl' : l' ≠ []) : Trimmed p (l ++ m ++ l') where
  head := by
    obtain ⟨a, l, rfl⟩ := List.exists_cons_of_ne_nil hl
    exact h.head
  last := by
    rw [List.getLast?_append_of_ne_nil _ hl']
    exact h'.last

end Trim

end Lib
