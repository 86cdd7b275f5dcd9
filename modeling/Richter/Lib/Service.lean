import Mathlib.Data.Option.Basic

/-! Services that answer one call after another, and simulation between two of them. -/

namespace Lib

universe u v w x

/-- A service: what a call answers and the state after it, unless the call panics. -/
structure Service (σ : Type u) (ι : Type v) (ο : Type w) where
  call : σ → ι → Option (ο × σ)

namespace Service

variable {σ : Type u} {τ : Type x} {ι : Type v} {ο : Type w}

/-- The answers to the calls `is`, and the state after them. -/
def serve (m : Service σ ι ο) : σ → List ι → Option (List ο × σ)
  | s, [] => some ([], s)
  | s, i :: is =>
      (m.call s i).bind fun (o, t) => (m.serve t is).map fun (os, u) => (o :: os, u)

theorem serve_cons {m : Service σ ι ο} {s t u : σ} {i : ι} {is : List ι} {o : ο} {os : List ο}
    (hCall : m.call s i = some (o, t)) (hServe : m.serve t is = some (os, u)) :
    m.serve s (i :: is) = some (o :: os, u) := by
  simp [serve, hCall, hServe]

/-- Calls within `P` keep the relation `R` between the states of two services, and are answered
alike by both. -/
def Simulates (P : ι → Prop) (R : σ → τ → Prop) (m : Service σ ι ο) (spec : Service τ ι ο) : Prop :=
  ∀ s t i o t', P i → R s t → spec.call t i = some (o, t') →
    ∃ s', m.call s i = some (o, s') ∧ R s' t'

/-- A service that simulates another answers every sequence of calls as the other does. -/
theorem Simulates.serve {P : ι → Prop} {R : σ → τ → Prop} {m : Service σ ι ο}
    {spec : Service τ ι ο} (h : m.Simulates P R spec) {is : List ι} (hP : ∀ i ∈ is, P i)
    {s : σ} {t t' : τ} (hR : R s t) {os : List ο} (hServe : spec.serve t is = some (os, t')) :
    ∃ s', m.serve s is = some (os, s') ∧ R s' t' := by
  induction is generalizing s t os with
  | nil =>
    cases hServe
    exact ⟨s, rfl, hR⟩
  | cons i is ih =>
    obtain ⟨⟨o, u⟩, hCall, hRest⟩ := Option.bind_eq_some_iff.mp hServe
    obtain ⟨⟨os', t''⟩, hTail, hEq⟩ := Option.map_eq_some_iff.mp hRest
    cases hEq
    obtain ⟨s', hImpl, hR'⟩ := h s t i o u (hP i List.mem_cons_self) hR hCall
    obtain ⟨s'', hImplRest, hR''⟩ := ih (fun j hj => hP j (List.mem_cons_of_mem i hj)) hR' hTail
    exact ⟨s'', serve_cons hImpl hImplRest, hR''⟩

end Service

end Lib
