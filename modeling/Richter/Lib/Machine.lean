/-! Machines that take labelled steps, their runs, and the rules by which a fact about one step
becomes a fact about every run. -/

namespace Lib

universe u v

/-- A machine.  In a state, an action either is not enabled or leads to one state: every choice
that the environment makes (which party moves, what an outside call answers, what time it is) is
part of the action. -/
structure Machine (σ : Type u) (α : Type v) where
  step : σ → α → Option σ

namespace Machine

variable {σ : Type u} {α : Type v}

/-- The state after the actions `as`, all of them enabled. -/
def run (m : Machine σ α) : σ → List α → Option σ
  | s, [] => some s
  | s, a :: as => (m.step s a).bind fun t => m.run t as

/-- The states that the actions `as` lead through, the first and the last included. -/
def trace (m : Machine σ α) : σ → List α → List σ
  | s, [] => [s]
  | s, a :: as => s :: ((m.step s a).map fun t => m.trace t as).getD []

/-- The actions `as` lead from `s` to `t`, and each is taken in a state in which it meets `G`. -/
inductive Runs (m : Machine σ α) (G : σ → α → Prop) : σ → List α → σ → Prop
  | nil (s : σ) : Runs m G s [] s
  | cons {s t u : σ} {a : α} {as : List α} :
      G s a → m.step s a = some t → Runs m G t as u → Runs m G s (a :: as) u

/-- The machine that takes the steps of `m` that meet `G`. -/
def restrict (m : Machine σ α) (G : σ → α → Prop) [∀ s a, Decidable (G s a)] : Machine σ α where
  step s a := if G s a then m.step s a else none

variable {m : Machine σ α} {G : σ → α → Prop}

@[simp] theorem restrict_step [∀ s a, Decidable (G s a)] (s : σ) (a : α) :
    (m.restrict G).step s a = if G s a then m.step s a else none := rfl

theorem run_cons {s t : σ} {a : α} {as : List α} :
    m.run s (a :: as) = some t ↔ ∃ u, m.step s a = some u ∧ m.run u as = some t := by
  simp [run, Option.bind_eq_some_iff]

theorem Runs.of_run {s t : σ} {as : List α} (h : m.run s as = some t) :
    m.Runs (fun _ _ => True) s as t := by
  induction as generalizing s with
  | nil =>
    simp only [run, Option.some.injEq] at h
    exact h ▸ .nil s
  | cons a as ih =>
    obtain ⟨u, hStep, hRun⟩ := run_cons.mp h
    exact .cons trivial hStep (ih hRun)

theorem Runs.run {s t : σ} {as : List α} (h : m.Runs G s as t) : m.run s as = some t := by
  induction h with
  | nil s => rfl
  | cons _ hStep _ ih => exact run_cons.mpr ⟨_, hStep, ih⟩

/-- A run of the restricted machine is a run all of whose steps meet the restriction. -/
theorem Runs.of_restrict [∀ s a, Decidable (G s a)] {s t : σ} {as : List α}
    (h : (m.restrict G).run s as = some t) : m.Runs G s as t := by
  induction as generalizing s with
  | nil =>
    simp only [Machine.run, Option.some.injEq] at h
    exact h ▸ .nil s
  | cons a as ih =>
    obtain ⟨u, hStep, hRun⟩ := run_cons.mp h
    by_cases hG : G s a
    · rw [restrict_step, if_pos hG] at hStep
      exact .cons hG hStep (ih hRun)
    · rw [restrict_step, if_neg hG] at hStep
      cases hStep

theorem Runs.mono {G' : σ → α → Prop} (hG : ∀ s a, G s a → G' s a) {s t : σ} {as : List α}
    (h : m.Runs G s as t) : m.Runs G' s as t := by
  induction h with
  | nil s => exact .nil s
  | cons hg hStep _ ih => exact .cons (hG _ _ hg) hStep ih

theorem Runs.append {s t u : σ} {as bs : List α} (h1 : m.Runs G s as t) (h2 : m.Runs G t bs u) :
    m.Runs G s (as ++ bs) u := by
  induction h1 with
  | nil s => exact h2
  | cons hg hStep _ ih => exact .cons hg hStep (ih h2)

theorem Runs.of_append {s u : σ} {as bs : List α} (h : m.Runs G s (as ++ bs) u) :
    ∃ t, m.Runs G s as t ∧ m.Runs G t bs u := by
  induction as generalizing s with
  | nil => exact ⟨s, .nil s, h⟩
  | cons a as ih =>
    cases h with
    | cons hg hStep hRest =>
      obtain ⟨t, hFirst, hLast⟩ := ih hRest
      exact ⟨t, .cons hg hStep hFirst, hLast⟩

/-- What every step preserves, every run preserves. -/
theorem Runs.invariant {I : σ → Prop}
    (hStep : ∀ s a t, G s a → m.step s a = some t → I s → I t) {s t : σ} {as : List α}
    (h : m.Runs G s as t) (hs : I s) : I t := by
  induction h with
  | nil s => exact hs
  | cons hg h _ ih => exact ih (hStep _ _ _ hg h hs)

/-- A run all of whose steps meet `G`, because of an invariant that they preserve. -/
theorem Runs.of_invariant {I : σ → Prop}
    (hStep : ∀ s a t, m.step s a = some t → I s → G s a ∧ I t) {s t : σ} {as : List α}
    (h : m.run s as = some t) (hs : I s) : m.Runs G s as t := by
  induction as generalizing s with
  | nil =>
    simp only [Machine.run, Option.some.injEq] at h
    exact h ▸ .nil s
  | cons a as ih =>
    obtain ⟨u, hNext, hRun⟩ := run_cons.mp h
    obtain ⟨hG, hu⟩ := hStep s a u hNext hs
    exact .cons hG hNext (ih hRun hu)

/-- A run leads through the state at its end. -/
theorem Runs.mem_trace {s t : σ} {as : List α} (h : m.Runs G s as t) : t ∈ m.trace s as := by
  induction h with
  | nil s => exact List.mem_singleton_self s
  | cons _ hStep _ ih =>
    simp only [trace, hStep, Option.map_some, Option.getD_some]
    exact List.mem_cons_of_mem _ ih

/-- The rule for a condition on a state and on the states before it, here `V`: a step adds the state
that it leads to. -/
theorem Runs.invariant_trace {I : (σ → Prop) → σ → Prop}
    (hMono : ∀ V W s, (∀ u, V u → W u) → I V s → I W s)
    (hStep : ∀ V s a t, G s a → m.step s a = some t → I V s → I (fun u => V u ∨ u = t) t)
    {V : σ → Prop} {s t : σ} {as : List α} (h : m.Runs G s as t) (hs : I V s) :
    I (fun u => V u ∨ u ∈ m.trace s as) t := by
  induction h generalizing V with
  | nil s => exact hMono _ _ _ (fun u hu => .inl hu) hs
  | @cons s t' t a as hg hNext _ ih =>
    refine hMono _ _ _ (fun u hu => ?_) (ih (hStep V s a t' hg hNext hs))
    have hTrace : m.trace s (a :: as) = s :: m.trace t' as := by simp [trace, hNext]
    rw [hTrace]
    have hFirst : t' ∈ m.trace t' as := by cases as <;> simp [trace]
    rcases hu with (hu | rfl) | hu
    · exact .inl hu
    · exact .inr (List.mem_cons_of_mem _ hFirst)
    · exact .inr (List.mem_cons_of_mem _ hu)

/-- A preorder on states that every step from a state with `I` follows holds between the ends of
every run, when the steps also preserve `I`. -/
theorem Runs.rel (I : σ → Prop) {R : σ → σ → Prop} (hRefl : ∀ s, R s s)
    (hTrans : ∀ s t u, R s t → R t u → R s u)
    (hStep : ∀ s a t, G s a → m.step s a = some t → I s → I t ∧ R s t) {s t : σ} {as : List α}
    (h : m.Runs G s as t) (hs : I s) : R s t := by
  induction h with
  | nil s => exact hRefl s
  | cons hg h _ ih =>
    obtain ⟨ht, hR⟩ := hStep _ _ _ hg h hs
    exact hTrans _ _ _ hR (ih ht)

end Machine

end Lib
