import Mathlib.Data.Fintype.Defs
import Mathlib.Logic.Function.Basic
import Richter.Lib.Machine

/-! Clients that read a row, pass some checks, and then write the row anew.  A part of what a client
writes is what it has read.  Without a lock this part is lost when another client changes it in
between. -/

namespace Lib

/-- Where a client stands: it has not begun, it has read a row and still has checks to pass before
it writes, or it has ended. -/
inductive Progress (κ ρ : Type)
  | start
  | reading (x : ρ) (checks : List κ)
  | done

def Progress.isReading {κ ρ : Type} : Progress κ ρ → Bool
  | .reading _ _ => true
  | _ => false

/-- The clients `ι`, whose client `i` writes `put i x y` over the row `y` when it has read `x`. -/
structure ReadThenWrite (ι κ ρ φ : Type) where
  checks : List κ
  put : ι → ρ → ρ → ρ
  /-- The part of a row that a client takes over. -/
  kept : ι → ρ → φ
  kept_put : ∀ i x y, kept i (put i x y) = kept i x

namespace ReadThenWrite

variable {ι κ ρ φ : Type}

structure State (ι κ ρ : Type) where
  row : ρ
  progress : ι → Progress κ ρ

/-- Client `who` takes its next step, which succeeds or ends it. -/
structure Action (ι : Type) where
  who : ι
  ok : Bool

variable (c : ReadThenWrite ι κ ρ φ)

/-- The step of a client that is not done, and the row after it. -/
def next (i : ι) (ok : Bool) (row : ρ) : Progress κ ρ → Option (ρ × Progress κ ρ)
  | .start => some (row, if ok then .reading row c.checks else .done)
  | .reading x (_ :: checks) => some (row, if ok then .reading x checks else .done)
  | .reading x [] => some (if ok then c.put i x row else row, .done)
  | .done => none

variable [DecidableEq ι]

def machine : Machine (State ι κ ρ) (Action ι) where
  step s a := (c.next a.who a.ok s.row (s.progress a.who)).map fun r =>
    ⟨r.1, Function.update s.progress a.who r.2⟩

/-- No client has begun. -/
def initial (row : ρ) : State ι κ ρ := ⟨row, fun _ => .start⟩

/-- The step changes nothing that another client has read and takes over. -/
def Undisturbed (s : State ι κ ρ) (a : Action ι) : Prop :=
  ∀ t, c.machine.step s a = some t → ∀ j, j ≠ a.who → ∀ x checks,
    s.progress j = .reading x checks → c.kept j t.row = c.kept j s.row

instance [Fintype ι] [DecidableEq φ] (s : State ι κ ρ) (a : Action ι) :
    Decidable (c.Undisturbed s a) :=
  decidable_of_iff (∀ t ∈ c.machine.step s a, ∀ j, j ≠ a.who →
      (s.progress j).isReading = true → c.kept j t.row = c.kept j s.row) <| by
    refine forall₂_congr fun t _ => forall₂_congr fun j _ => ?_
    cases s.progress j <;> simp [Progress.isReading]

variable {c} {s t : State ι κ ρ} {a : Action ι}

theorem step_eq_some (h : c.machine.step s a = some t) : ∃ row p,
    c.next a.who a.ok s.row (s.progress a.who) = some (row, p) ∧
      t = ⟨row, Function.update s.progress a.who p⟩ := by
  obtain ⟨r, hNext, rfl⟩ := Option.map_eq_some_iff.mp h
  exact ⟨r.1, r.2, hNext, rfl⟩

/-- What each client has read and takes over is still what the row has. -/
def Fresh (c : ReadThenWrite ι κ ρ φ) (s : State ι κ ρ) : Prop :=
  ∀ j x checks, s.progress j = .reading x checks → c.kept j x = c.kept j s.row

omit [DecidableEq ι] in
/-- A client whose row is fresh leaves what it takes over, and reads a fresh row. -/
theorem next_kept {i : ι} {ok : Bool} {row row' : ρ} {p p' : Progress κ ρ}
    (hFresh : ∀ x checks, p = .reading x checks → c.kept i x = c.kept i row)
    (h : c.next i ok row p = some (row', p')) :
    c.kept i row' = c.kept i row ∧
      ∀ x checks, p' = .reading x checks → c.kept i x = c.kept i row' := by
  cases p with
  | start =>
    cases ok <;> cases h
    · exact ⟨rfl, fun x checks hEq => by cases hEq⟩
    · refine ⟨rfl, fun x checks hEq => ?_⟩
      cases hEq
      rfl
  | reading x checks =>
    have hx := hFresh x checks rfl
    cases checks with
    | nil =>
      cases ok <;> cases h
      · exact ⟨rfl, fun x checks hEq => by cases hEq⟩
      · exact ⟨(c.kept_put i x row).trans hx, fun x checks hEq => by cases hEq⟩
    | cons check checks =>
      cases ok <;> cases h
      · exact ⟨rfl, fun x checks hEq => by cases hEq⟩
      · refine ⟨rfl, fun x' checks' hEq => ?_⟩
        cases hEq
        exact hx
  | done => cases h

/-- A step from a state in which everything is fresh keeps what its client takes over, and, where it
disturbs nobody, everything stays fresh. -/
theorem Fresh.step (hs : c.Fresh s) (h : c.machine.step s a = some t) :
    c.kept a.who t.row = c.kept a.who s.row ∧ (c.Undisturbed s a → c.Fresh t) := by
  obtain ⟨row, p, hNext, rfl⟩ := step_eq_some h
  obtain ⟨hKept, hRead⟩ := next_kept (hs a.who) hNext
  refine ⟨hKept, fun hQuiet j x checks hReading => ?_⟩
  by_cases hj : j = a.who
  · subst hj
    exact hRead x checks (by simpa using hReading)
  · simp only [Function.update_of_ne hj] at hReading
    rw [hs j x checks hReading]
    exact (hQuiet _ h j hj x checks hReading).symm

/-- In a run of steps that disturb nobody everything stays fresh. -/
theorem fresh_of_undisturbed {row : ρ} {as : List (Action ι)}
    (h : c.machine.Runs c.Undisturbed (initial row) as s) : c.Fresh s :=
  Machine.Runs.invariant (fun _ _ _ hQuiet hStep hs => (hs.step hStep).2 hQuiet) h
    fun _ _ _ hReading => by cases hReading

/-- A client that has read a row goes on to write it, whatever the row is by then. -/
theorem run_to_write {j : ι} {x : ρ} (checks : List κ) {s : State ι κ ρ}
    (h : s.progress j = .reading x checks) :
    ∃ u v, c.machine.run s (List.replicate checks.length ⟨j, true⟩) = some u ∧
      u.row = s.row ∧ c.machine.step u ⟨j, true⟩ = some v ∧ v.row = c.put j x s.row := by
  induction checks generalizing s with
  | nil =>
    refine ⟨s, ⟨c.put j x s.row, Function.update s.progress j .done⟩, rfl, rfl, ?_, rfl⟩
    simp [machine, next, h]
  | cons check checks ih =>
    have hStep : c.machine.step s ⟨j, true⟩ =
        some ⟨s.row, Function.update s.progress j (.reading x checks)⟩ := by
      simp [machine, next, h]
    obtain ⟨u, v, hRun, hRow, hWrite, hPut⟩ := ih
      (s := ⟨s.row, Function.update s.progress j (.reading x checks)⟩) (by simp)
    exact ⟨u, v, Machine.run_cons.mpr ⟨_, hStep, hRun⟩, hRow, hWrite, hPut⟩

/-- After a step that disturbs a client, this client goes on to change what it takes over. -/
theorem exists_lost (hs : c.Fresh s) (h : c.machine.step s a = some t)
    (hDisturbed : ¬c.Undisturbed s a) : ∃ j as u v, c.machine.run t as = some u ∧
      c.machine.step u ⟨j, true⟩ = some v ∧ c.kept j v.row ≠ c.kept j u.row := by
  simp only [Undisturbed, not_forall] at hDisturbed
  obtain ⟨t', hStep, j, hj, x, checks, hReading, hChanged⟩ := hDisturbed
  obtain rfl : t' = t := Option.some.inj (hStep.symm.trans h)
  obtain ⟨row, p, -, rfl⟩ := step_eq_some h
  have hStill : (Function.update s.progress a.who p) j = .reading x checks := by
    rw [Function.update_of_ne hj, hReading]
  obtain ⟨u, v, hRun, hRow, hWrite, hPut⟩ := run_to_write (c := c) checks
    (s := ⟨row, Function.update s.progress a.who p⟩) hStill
  refine ⟨j, _, u, v, hRun, hWrite, fun hSame => hChanged ?_⟩
  rw [hPut, hRow, c.kept_put, hs j x checks hReading] at hSame
  exact hSame.symm

end ReadThenWrite

end Lib
