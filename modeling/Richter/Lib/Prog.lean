import Mathlib.Logic.Function.Basic
import Richter.Lib.Machine

/-! Programs over a set of operations, their weakest preconditions, and pools of programs that run
side by side over one store.  An operation is the grain of interleaving: what happens inside one
is not interrupted. -/

namespace Lib

/-- Programs that perform operations `o : Op`, each of which answers with a `Resp o`. -/
inductive Prog (Op : Type) (Resp : Op → Type) (α : Type) : Type
  | ret (a : α)
  | op (o : Op) (k : Resp o → Prog Op Resp α)

namespace Prog

variable {Op : Type} {Resp : Op → Type} {α β ε σ ω : Type}

def bind : Prog Op Resp α → (α → Prog Op Resp β) → Prog Op Resp β
  | ret a, f => f a
  | op o k, f => op o fun r => (k r).bind f

instance : Monad (Prog Op Resp) where
  pure := ret
  bind := bind

/-- The program of one operation. -/
def perform (o : Op) : Prog Op Resp (Resp o) := op o ret

@[simp] theorem pure_eq (a : α) : (pure a : Prog Op Resp α) = ret a := rfl

@[simp] theorem ret_bind (a : α) (f : α → Prog Op Resp β) : ret a >>= f = f a := rfl

@[simp] theorem op_bind (o : Op) (k : Resp o → Prog Op Resp α) (f : α → Prog Op Resp β) :
    op o k >>= f = op o fun r => k r >>= f := rfl

@[simp] theorem perform_bind (o : Op) (f : Resp o → Prog Op Resp β) :
    perform o >>= f = op o f := rfl

/-- From `s`, where `Step` says what an operation may do, every operation that the program comes
to perform meets `P` in its state, and the program ends with `Q` if it ends. -/
def Ensures (Step : (o : Op) → σ → Resp o → σ → Prop) (P : σ → Op → Prop) :
    Prog Op Resp α → (α → σ → Prop) → σ → Prop
  | ret a, Q, s => Q a s
  | op o k, Q, s => P s o ∧ ∀ r t, Step o s r t → (k r).Ensures Step P Q t

section Ensures

variable {Step : (o : Op) → σ → Resp o → σ → Prop} {P P' : σ → Op → Prop}
  {Q Q' : α → σ → Prop} {p : Prog Op Resp α} {s : σ}

@[simp] theorem ensures_ret (a : α) : (ret a).Ensures Step P Q s ↔ Q a s := Iff.rfl

@[simp] theorem ensures_op (o : Op) (k : Resp o → Prog Op Resp α) :
    (op o k).Ensures Step P Q s ↔ P s o ∧ ∀ r t, Step o s r t → (k r).Ensures Step P Q t :=
  Iff.rfl

theorem Ensures.mono (h : p.Ensures Step P Q s) (hP : ∀ s o, P s o → P' s o)
    (hQ : ∀ a s, Q a s → Q' a s) : p.Ensures Step P' Q' s := by
  induction p generalizing s with
  | ret a => exact hQ a s h
  | op o k ih => exact ⟨hP _ _ h.1, fun r t hStep => ih r (h.2 r t hStep)⟩

/-- What holds for operations that may do more holds for ones that may do less. -/
theorem Ensures.of_step {Step' : (o : Op) → σ → Resp o → σ → Prop} (h : p.Ensures Step P Q s)
    (hStep : ∀ o s r t, Step' o s r t → Step o s r t) : p.Ensures Step' P Q s := by
  induction p generalizing s with
  | ret a => exact h
  | op o k ih => exact ⟨h.1, fun r t ht => ih r (h.2 r t (hStep o s r t ht))⟩

theorem Ensures.and (h : p.Ensures Step P Q s) (h' : p.Ensures Step P' Q' s) :
    p.Ensures Step (fun s o => P s o ∧ P' s o) (fun a s => Q a s ∧ Q' a s) s := by
  induction p generalizing s with
  | ret a => exact ⟨h, h'⟩
  | op o k ih => exact ⟨⟨h.1, h'.1⟩, fun r t hStep => ih r (h.2 r t hStep) (h'.2 r t hStep)⟩

theorem ensures_true (p : Prog Op Resp α) (hP : ∀ s o, P s o) :
    p.Ensures Step P (fun _ _ => True) s := by
  induction p generalizing s with
  | ret a => trivial
  | op o k ih => exact ⟨hP s o, fun r t _ => ih r⟩

theorem ensures_bind (f : α → Prog Op Resp β) {R : β → σ → Prop} :
    (p >>= f).Ensures Step P R s ↔ p.Ensures Step P (fun a t => (f a).Ensures Step P R t) s := by
  induction p generalizing s with
  | ret a => exact Iff.rfl
  | op o k ih => exact and_congr_right fun _ => forall₃_congr fun r t _ => ih r

/-- `Ensures` for programs that may end in an error: the condition `err` on the state then holds in
place of `ok`. -/
def Meets (Step : (o : Op) → σ → Resp o → σ → Prop) (P : σ → Op → Prop)
    (x : ExceptT ε (Prog Op Resp) α) (ok : α → σ → Prop) (err : σ → Prop) (s : σ) : Prop :=
  x.run.Ensures Step P (fun
    | .ok a => ok a
    | .error _ => err) s

variable {x : ExceptT ε (Prog Op Resp) α} {ok ok' : α → σ → Prop} {err err' : σ → Prop}

@[simp] theorem meets_pure (a : α) :
    Meets Step P (pure a : ExceptT ε (Prog Op Resp) α) ok err s ↔ ok a s := Iff.rfl

@[simp] theorem meets_throw (e : ε) :
    Meets Step P (throw e : ExceptT ε (Prog Op Resp) α) ok err s ↔ err s := Iff.rfl

theorem meets_perform (o : Op) {ok : Resp o → σ → Prop} :
    Meets Step P (ExceptT.lift (perform o) : ExceptT ε (Prog Op Resp) (Resp o)) ok err s ↔
      P s o ∧ ∀ r t, Step o s r t → ok r t := Iff.rfl

theorem Meets.mono (h : Meets Step P x ok err s) (hOk : ∀ a s, ok a s → ok' a s)
    (hErr : ∀ s, err s → err' s) : Meets Step P x ok' err' s :=
  Ensures.mono h (fun _ _ => id) fun
    | .ok a, s => hOk a s
    | .error _, s => hErr s

/-- The rule of sequences for programs that may end in an error. -/
theorem meets_bind (f : α → ExceptT ε (Prog Op Resp) β) {ok : β → σ → Prop} :
    Meets Step P (x >>= f) ok err s ↔
      Meets Step P x (fun a t => Meets Step P (f a) ok err t) err s := by
  refine (ensures_bind (p := x.run) _).trans (iff_of_eq ?_)
  refine congrArg (fun Q => x.run.Ensures Step P Q s) ?_
  funext a t
  cases a <;> rfl

/-- The rule of sequences, from what is known of the first program. -/
theorem Meets.bind {f : α → ExceptT ε (Prog Op Resp) β} {okf : β → σ → Prop}
    (h : Meets Step P x ok err s) (hf : ∀ a t, ok a t → Meets Step P (f a) okf err t) :
    Meets Step P (x >>= f) okf err s := (meets_bind f).mpr (h.mono hf fun _ => id)

theorem meets_perform_bind (o : Op) {f : Resp o → ExceptT ε (Prog Op Resp) β}
    {ok : β → σ → Prop} :
    Meets Step P (ExceptT.lift (perform o) >>= f) ok err s ↔
      P s o ∧ ∀ r t, Step o s r t → Meets Step P (f r) ok err t := meets_bind f

/-- A program whose error is taken as a result. -/
theorem meets_lift {ok : Except ε α → σ → Prop} :
    Meets Step P (ExceptT.lift x.run : ExceptT ε (Prog Op Resp) (Except ε α)) ok err s ↔
      x.run.Ensures Step P ok s := ensures_bind (p := x.run) _

/-- Errors that are only exchanged for others. -/
theorem Meets.tryCatch (h : Meets Step P x ok err s) (f : ε → ε) :
    Meets Step P (MonadExcept.tryCatch x fun e => throw (f e)) ok err s := by
  refine (ensures_bind (p := x.run) _).mpr (Ensures.mono h (fun _ _ => id) ?_)
  rintro (e | a) t hQ <;> exact hQ

section Transaction

variable {δ : Type}

/-- A body between the begin and the commit of a transaction, which is rolled back when the body or
the commit fails. -/
def withCommit (begin commit : Prog Op Resp (Except δ Unit)) (rollback : Prog Op Resp Unit)
    (wrap : δ → ε) (f : ExceptT ε (Prog Op Resp) α) : ExceptT ε (Prog Op Resp) α := ExceptT.mk do
  match ← begin with
  | .error e => return .error (wrap e)
  | .ok () =>
    match ← f.run with
    | .error e =>
      rollback
      return .error e
    | .ok out =>
      match ← commit with
      | .error e =>
        rollback
        return .error (wrap e)
      | .ok () => return .ok out

/-- The rule of transactions. -/
theorem Ensures.withCommit {begin commit : Prog Op Resp (Except δ Unit)}
    {rollback : Prog Op Resp Unit} {wrap : δ → ε} {f : ExceptT ε (Prog Op Resp) α}
    (h : begin.Ensures Step P (fun
      | .error _ => err
      | .ok () => Meets Step P f
          (fun a => commit.Ensures Step P fun
            | .ok () => ok a
            | .error _ => rollback.Ensures Step P fun _ => err)
          (rollback.Ensures Step P fun _ => err)) s) :
    Meets Step P (withCommit begin commit rollback wrap f) ok err s := by
  refine (ensures_bind (p := begin) _).mpr (h.mono (fun _ _ => id) ?_)
  rintro (e | _) t hBegun
  · exact hBegun
  · refine (ensures_bind (p := f.run) _).mpr (Ensures.mono hBegun (fun _ _ => id) ?_)
    rintro (e | a) u hBody
    · exact (ensures_bind (p := rollback) _).mpr hBody
    · refine (ensures_bind (p := commit) _).mpr (Ensures.mono hBody (fun _ _ => id) ?_)
      rintro (e | _) v hCommitted
      · exact (ensures_bind (p := rollback) _).mpr hCommitted
      · exact hCommitted

end Transaction

end Ensures

/-- Every operation of the program meets `A`. -/
def Performs (A : Op → Prop) : Prog Op Resp α → Prop
  | ret _ => True
  | op o k => A o ∧ ∀ r, (k r).Performs A

section Performs

variable {A : Op → Prop} {p : Prog Op Resp α}

theorem Performs.bind (h : p.Performs A) {f : α → Prog Op Resp β} (hf : ∀ a, (f a).Performs A) :
    (p >>= f).Performs A := by
  induction p with
  | ret a => exact hf a
  | op o k ih => exact ⟨h.1, fun r => ih r (h.2 r)⟩

theorem Performs.of_bind {f : α → Prog Op Resp β} (h : (p >>= f).Performs A) : p.Performs A := by
  induction p with
  | ret a => trivial
  | op o k ih => exact ⟨h.1, fun r => ih r (h.2 r)⟩

theorem Performs.mono {B : Op → Prop} (h : p.Performs A) (hB : ∀ o, A o → B o) :
    p.Performs B := by
  induction p with
  | ret a => trivial
  | op o k ih => exact ⟨hB o h.1, fun r => ih r (h.2 r)⟩

theorem Performs.exceptT_bind {x : ExceptT ε (Prog Op Resp) α}
    {f : α → ExceptT ε (Prog Op Resp) β} (h : x.run.Performs A)
    (hf : ∀ a, (f a).run.Performs A) : (x >>= f).run.Performs A := by
  refine Performs.bind (p := x.run) h ?_
  rintro (e | a)
  · trivial
  · exact hf a

/-- What every operation with `A` keeps, a program of such operations keeps. -/
theorem Performs.ensures {Step : (o : Op) → σ → Resp o → σ → Prop} {P : σ → Op → Prop}
    {I : σ → Prop} (h : p.Performs A) (hP : ∀ s o, A o → I s → P s o)
    (hStep : ∀ o s r t, A o → I s → Step o s r t → I t) {s : σ} (hs : I s) :
    p.Ensures Step P (fun _ t => I t) s := by
  induction p generalizing s with
  | ret a => exact hs
  | op o k ih =>
    exact ⟨hP s o h.1 hs, fun r t ht => ih r (h.2 r) (hStep o s r t h.1 hs ht)⟩

theorem Performs.meets {Step : (o : Op) → σ → Resp o → σ → Prop} {P : σ → Op → Prop}
    {I : σ → Prop} {x : ExceptT ε (Prog Op Resp) α} (h : x.run.Performs A)
    (hP : ∀ s o, A o → I s → P s o)
    (hStep : ∀ o s r t, A o → I s → Step o s r t → I t) {s : σ} (hs : I s) :
    Meets Step P x (fun _ => I) I s :=
  (h.ensures hP hStep hs).mono (fun _ _ => id) fun
    | .ok _, _ => id
    | .error _, _ => id

end Performs

/-- The result and the state of a whole run of a program, when the environment's choices are the
given ones. -/
def run (exec : ω → (o : Op) → σ → Option (Resp o × σ)) :
    Prog Op Resp α → List ω → σ → Option (α × σ)
  | ret a, [], s => some (a, s)
  | op o k, w :: ws, s => (exec w o s).bind fun (r, t) => (k r).run exec ws t
  | ret _, _ :: _, _ | op _ _, [], _ => none

theorem Ensures.of_run {Step : (o : Op) → σ → Resp o → σ → Prop} {P : σ → Op → Prop}
    {Q : α → σ → Prop} {exec : ω → (o : Op) → σ → Option (Resp o × σ)}
    {ws : List ω} (hExec : ∀ w ∈ ws, ∀ o s r t, exec w o s = some (r, t) → Step o s r t)
    {p : Prog Op Resp α} {s t : σ} {a : α} (h : p.Ensures Step P Q s)
    (hRun : p.run exec ws s = some (a, t)) : Q a t := by
  induction p generalizing s ws with
  | ret b =>
    cases ws with
    | nil =>
      simp only [run, Option.some.injEq, Prod.mk.injEq] at hRun
      obtain ⟨rfl, rfl⟩ := hRun
      exact h
    | cons => cases hRun
  | op o k ih =>
    cases ws with
    | nil => cases hRun
    | cons w ws =>
      obtain ⟨⟨r, u⟩, hStep, hRest⟩ := Option.bind_eq_some_iff.mp hRun
      refine ih r (fun w' hw' => hExec w' (List.mem_cons_of_mem _ hw')) ?_ hRest
      exact h.2 r u (hExec w (List.mem_cons_self ..) _ _ _ _ hStep)

section Hoist

variable {Op' : Type} {Resp' : Op' → Type}

/-- The program over the operations of a larger system. -/
def hoist (f : Op → Op') (g : ∀ o, Resp' (f o) → Resp o) : Prog Op Resp α → Prog Op' Resp' α
  | ret a => ret a
  | op o k => op (f o) fun r => (k (g o r)).hoist f g

theorem ensures_hoist {Step : (o : Op') → σ → Resp' o → σ → Prop} {P : σ → Op' → Prop}
    {Q : α → σ → Prop} {f : Op → Op'} {g : ∀ o, Resp' (f o) → Resp o} {p : Prog Op Resp α}
    {s : σ} :
    (p.hoist f g).Ensures Step P Q s ↔ p.Ensures
      (fun o s r t => ∃ r', Step (f o) s r' t ∧ g o r' = r) (fun s o => P s (f o)) Q s := by
  induction p generalizing s with
  | ret a => exact Iff.rfl
  | op o k ih =>
    refine and_congr_right fun _ => ?_
    constructor
    · rintro h _ t ⟨r', hStep, rfl⟩
      exact ih _ |>.mp (h r' t hStep)
    · intro h r' t hStep
      exact ih _ |>.mpr (h _ t ⟨r', hStep, rfl⟩)

end Hoist

/-- The result of a program whose operations are answered one after the other in the ways of
`w`, and change nothing. -/
def eval (answer : ω → (o : Op) → Resp o) : Prog Op Resp α → (Nat → ω) → α
  | ret a, _ => a
  | op o k, w => (k (answer (w 0) o)).eval answer fun n => w (n + 1)

/-- What an operation may do when it only answers, in one of the ways of `W`. -/
def Answers (answer : ω → (o : Op) → Resp o) (W : ω → Prop) (o : Op) (_ : Unit) (r : Resp o)
    (_ : Unit) : Prop :=
  ∃ w, W w ∧ r = answer w o

section Eval

variable {answer answer' : ω → (o : Op) → Resp o} {W : ω → Prop} {p : Prog Op Resp α}

theorem Ensures.of_eval {P : Unit → Op → Prop} {Q : α → Unit → Prop}
    (h : p.Ensures (Answers answer W) P Q ()) {w : Nat → ω} (hw : ∀ n, W (w n)) :
    Q (p.eval answer w) () := by
  induction p generalizing w with
  | ret a => exact h
  | op o k ih => exact ih _ (h.2 _ () ⟨w 0, hw 0, rfl⟩) fun n => hw (n + 1)

/-- Two ways to answer that agree on every operation which the program comes to perform give it the
same result. -/
theorem Ensures.eval_congr {Q : α → Unit → Prop}
    (h : p.Ensures (Answers answer W) (fun _ o => ∀ w, W w → answer' w o = answer w o) Q ())
    {w : Nat → ω} (hw : ∀ n, W (w n)) : p.eval answer' w = p.eval answer w := by
  induction p generalizing w with
  | ret a => rfl
  | op o k ih =>
    show (k (answer' (w 0) o)).eval answer' _ = (k (answer (w 0) o)).eval answer _
    rw [h.1 (w 0) (hw 0)]
    exact ih _ (h.2 _ () ⟨w 0, hw 0, rfl⟩) fun n => hw (n + 1)

/-- Where every operation is answered in one way, a sequence is evaluated part by part. -/
theorem eval_bind (f : α → Prog Op Resp β) (e : ω) :
    (p >>= f).eval answer (fun _ => e) =
      (f (p.eval answer fun _ => e)).eval answer fun _ => e := by
  induction p with
  | ret a => rfl
  | op o k ih => exact ih _

theorem eval_exceptT_bind (x : ExceptT ε (Prog Op Resp) α) (f : α → ExceptT ε (Prog Op Resp) β)
    (e : ω) :
    (x >>= f).run.eval answer (fun _ => e) =
      match x.run.eval answer (fun _ => e) with
      | .ok a => (f a).run.eval answer fun _ => e
      | .error err => .error err := by
  refine (eval_bind (p := x.run) _ e).trans ?_
  cases x.run.eval answer fun _ => e <;> rfl

/-- A program that has ended as `f` asks has nothing more to do. -/
theorem eval_bind_ret {f : α → Prog Op Resp β} {w : Nat → ω} {b : β}
    (h : f (p.eval answer w) = ret b) : (p >>= f).eval answer w = b := by
  induction p generalizing w with
  | ret a =>
    show (f a).eval answer w = b
    rw [show f a = ret b from h]
    rfl
  | op o k ih => exact ih _ h

theorem eval_exceptT_error {x : ExceptT ε (Prog Op Resp) α} {w : Nat → ω} {err : ε}
    (h : x.run.eval answer w = .error err) (f : α → ExceptT ε (Prog Op Resp) β) :
    (x >>= f).run.eval answer w = .error err :=
  eval_bind_ret (p := x.run) (by rw [h]; rfl)

/-- The operations of a program over a larger system are answered as the system answers them. -/
theorem eval_hoist {ω' Op' : Type} {Resp' : Op' → Type} {f : Op → Op'}
    {g : ∀ o, Resp' (f o) → Resp o} {answer' : ω' → (o : Op') → Resp' o} (view : ω' → ω)
    (h : ∀ w o, g o (answer' w (f o)) = answer (view w) o) (w : Nat → ω') :
    (p.hoist f g).eval answer' w = p.eval answer fun n => view (w n) := by
  induction p generalizing w with
  | ret a => rfl
  | op o k ih =>
    show ((k (g o (answer' (w 0) (f o)))).hoist f g).eval answer' _ = (k _).eval answer _
    rw [h]
    exact ih _ fun n => w (n + 1)

end Eval

/-- An operation that has been performed, with its answer. -/
structure Event (Op : Type) (Resp : Op → Type) where
  op : Op
  resp : Resp op

/-- After the events `h`, every operation that the program comes to perform meets `P`, whatever
was answered before, and the program ends with `Q`. -/
def Along (P : List (Event Op Resp) → Op → Prop) (p : Prog Op Resp α)
    (Q : α → List (Event Op Resp) → Prop) (h : List (Event Op Resp)) : Prop :=
  p.Ensures (fun o h r h' => h' = h ++ [⟨o, r⟩]) P Q h

/-- The result, the state and the events of a whole run of a program, when the environment's
choices are the given ones. -/
def log (exec : ω → (o : Op) → σ → Option (Resp o × σ)) :
    Prog Op Resp α → List ω → σ → Option (α × σ × List (Event Op Resp))
  | ret a, [], s => some (a, s, [])
  | op o k, w :: ws, s => (exec w o s).bind fun (r, t) =>
      ((k r).log exec ws t).map fun (a, u, h) => (a, u, ⟨o, r⟩ :: h)
  | ret _, _ :: _, _ | op _ _, [], _ => none

/-- The events lead from one state to another. -/
inductive Trace (exec : ω → (o : Op) → σ → Option (Resp o × σ)) :
    σ → List (Event Op Resp) → σ → Prop
  | nil (s : σ) : Trace exec s [] s
  | cons {w : ω} {o : Op} {r : Resp o} {s t u : σ} {h : List (Event Op Resp)} :
      exec w o s = some (r, t) → Trace exec t h u → Trace exec s (⟨o, r⟩ :: h) u

section Log

variable {exec : ω → (o : Op) → σ → Option (Resp o × σ)} {s t : σ}
  {h h' : List (Event Op Resp)}

theorem Trace.of_append (hTrace : Trace exec s (h ++ h') t) :
    ∃ u, Trace exec s h u ∧ Trace exec u h' t := by
  induction h generalizing s with
  | nil => exact ⟨s, .nil s, hTrace⟩
  | cons e h ih =>
    cases hTrace with
    | cons hExec hRest =>
      obtain ⟨u, hFirst, hLast⟩ := ih hRest
      exact ⟨u, .cons hExec hFirst, hLast⟩

/-- What every event with `A` preserves, such events preserve. -/
theorem Trace.invariant {A : Event Op Resp → Prop} {I : σ → Prop}
    (hStep : ∀ w o r s t, A ⟨o, r⟩ → exec w o s = some (r, t) → I s → I t)
    (hTrace : Trace exec s h t) (hA : ∀ e ∈ h, A e) (hs : I s) : I t := by
  induction hTrace with
  | nil => exact hs
  | cons hExec _ ih =>
    rw [List.forall_mem_cons] at hA
    exact ih hA.2 (hStep _ _ _ _ _ hA.1 hExec hs)

/-- An event has happened in a state that the ones before it have led to. -/
theorem Trace.event {e : Event Op Resp} (hTrace : Trace exec s h t) (he : e ∈ h) :
    ∃ before after w u v, h = before ++ e :: after ∧ Trace exec s before u ∧
      exec w e.op u = some (e.resp, v) ∧ Trace exec v after t := by
  obtain ⟨before, after, rfl⟩ := List.mem_iff_append.mp he
  obtain ⟨u, hBefore, hRest⟩ := hTrace.of_append
  cases hRest with
  | cons hExec hAfter => exact ⟨before, after, _, u, _, rfl, hBefore, hExec, hAfter⟩

/-- A run is a trace, at the end of which holds what the program ensures along its way. -/
theorem Along.of_log {P : List (Event Op Resp) → Op → Prop}
    {Q : α → List (Event Op Resp) → Prop} {p : Prog Op Resp α} {ws : List ω} {a : α}
    (hp : p.Along P Q h) (hLog : p.log exec ws s = some (a, t, h')) :
    Trace exec s h' t ∧ Q a (h ++ h') := by
  induction p generalizing s h ws h' with
  | ret b =>
    cases ws with
    | nil =>
      cases hLog
      exact ⟨.nil _, by rwa [List.append_nil]⟩
    | cons => cases hLog
  | op o k ih =>
    cases ws with
    | nil => cases hLog
    | cons w ws =>
      obtain ⟨⟨r, u⟩, hExec, hRest⟩ := Option.bind_eq_some_iff.mp hLog
      obtain ⟨⟨b, v, h₁⟩, hTail, hEq⟩ := Option.map_eq_some_iff.mp hRest
      cases hEq
      obtain ⟨hTrace, hQ⟩ := ih r (hp.2 r _ rfl) hTail
      refine ⟨.cons hExec hTrace, ?_⟩
      rwa [List.append_assoc] at hQ

/-- An event of a run is an operation that the program has come to perform, answered by one of the
choices. -/
theorem Along.event_of_log {P : List (Event Op Resp) → Op → Prop}
    {Q : α → List (Event Op Resp) → Prop} {p : Prog Op Resp α} {ws : List ω} {a : α}
    {e : Event Op Resp} (hp : p.Along P Q h) (hLog : p.log exec ws s = some (a, t, h'))
    (he : e ∈ h') :
    ∃ before, P before e.op ∧ ∃ w ∈ ws, ∃ u v, exec w e.op u = some (e.resp, v) := by
  induction p generalizing s h ws h' with
  | ret b =>
    cases ws with
    | nil =>
      cases hLog
      cases he
    | cons => cases hLog
  | op o k ih =>
    cases ws with
    | nil => cases hLog
    | cons w ws =>
      obtain ⟨⟨r, u⟩, hExec, hRest⟩ := Option.bind_eq_some_iff.mp hLog
      obtain ⟨⟨b, v, h₁⟩, hTail, hEq⟩ := Option.map_eq_some_iff.mp hRest
      cases hEq
      rcases List.mem_cons.mp he with rfl | he
      · exact ⟨h, hp.1, w, List.mem_cons_self .., s, u, hExec⟩
      · obtain ⟨before, hBefore, w', hw', hAnswer⟩ := ih r (hp.2 r _ rfl) hTail he
        exact ⟨before, hBefore, w', List.mem_cons_of_mem _ hw', hAnswer⟩

/-- A state that is followed by the events so far, as many as choices of `ws` have been made. -/
def Logged (exec : ω → (o : Op) → σ → Option (Resp o × σ)) (ws : List ω) (o : Op)
    (x : σ × List (Event Op Resp)) (r : Resp o) (y : σ × List (Event Op Resp)) : Prop :=
  (∃ w, ws[x.2.length]? = some w ∧ exec w o x.1 = some (r, y.1)) ∧ y.2 = x.2 ++ [⟨o, r⟩]

/-- What a program ensures of states and events holds at the end of a run. -/
theorem Ensures.of_log {P : σ × List (Event Op Resp) → Op → Prop}
    {Q : α → σ × List (Event Op Resp) → Prop} {p : Prog Op Resp α} (ws : List ω) {ws' : List ω}
    {a : α}
    (hp : p.Ensures (Logged exec (ws ++ ws')) P Q (s, h)) (hLength : h.length = ws.length)
    (hLog : p.log exec ws' s = some (a, t, h')) : Q a (t, h ++ h') := by
  induction p generalizing s h ws ws' h' with
  | ret b =>
    cases ws' with
    | nil =>
      cases hLog
      rw [List.append_nil]
      exact hp
    | cons => cases hLog
  | op o k ih =>
    cases ws' with
    | nil => cases hLog
    | cons w ws' =>
      obtain ⟨⟨r, u⟩, hExec, hRest⟩ := Option.bind_eq_some_iff.mp hLog
      obtain ⟨⟨b, v, h₁⟩, hTail, hEq⟩ := Option.map_eq_some_iff.mp hRest
      cases hEq
      have hStep : Logged exec (ws ++ w :: ws') o (s, h) r (u, h ++ [⟨o, r⟩]) :=
        ⟨⟨w, by simp [hLength], hExec⟩, rfl⟩
      have hNext := hp.2 r _ hStep
      rw [show ws ++ w :: ws' = (ws ++ [w]) ++ ws' by simp] at hNext
      have hEnd := ih r _ hNext (by simp [hLength]) hTail
      rwa [List.append_assoc] at hEnd

/-- The state and the events of a run that goes as far as the choices of the environment do: it is
cut off there, unless the program has just ended. -/
def steps (exec : ω → (o : Op) → σ → Option (Resp o × σ)) :
    Prog Op Resp α → List ω → σ → Option (σ × List (Event Op Resp))
  | _, [], s => some (s, [])
  | op o k, w :: ws, s => (exec w o s).bind fun (r, t) =>
      ((k r).steps exec ws t).map fun (u, h) => (u, ⟨o, r⟩ :: h)
  | ret _, _ :: _, _ => none

/-- What a program ensures wherever it is about to perform an operation or has ended holds where a
run is cut off. -/
theorem Ensures.of_steps {I : σ × List (Event Op Resp) → Prop} {p : Prog Op Resp α}
    {ws ws' : List ω}
    (hp : p.Ensures (Logged exec (ws ++ ws')) (fun x _ => I x) (fun _ => I) (s, h))
    (hLength : h.length = ws.length) (hSteps : p.steps exec ws' s = some (t, h')) :
    I (t, h ++ h') := by
  induction ws' generalizing p s h ws h' with
  | nil =>
    have hEnd : some (s, []) = some (t, h') := by
      cases p <;> exact hSteps
    cases hEnd
    rw [List.append_nil]
    cases p with
    | ret a => exact hp
    | op o k => exact hp.1
  | cons w ws' ih =>
    cases p with
    | ret a => cases hSteps
    | op o k =>
      obtain ⟨⟨r, u⟩, hExec, hRest⟩ := Option.bind_eq_some_iff.mp hSteps
      obtain ⟨⟨v, h₁⟩, hTail, hEq⟩ := Option.map_eq_some_iff.mp hRest
      cases hEq
      have hStep : Logged exec (ws ++ w :: ws') o (s, h) r (u, h ++ [⟨o, r⟩]) :=
        ⟨⟨w, by simp [hLength], hExec⟩, rfl⟩
      have hNext := hp.2 r _ hStep
      rw [show ws ++ w :: ws' = (ws ++ [w]) ++ ws' by simp] at hNext
      have hEnd := ih hNext (by simp [hLength]) hTail
      rwa [List.append_assoc] at hEnd

/-- A state that is followed by the events so far, when the environment chooses by what it sees. -/
def Chosen (exec : ω → (o : Op) → σ → Option (Resp o × σ)) (choice : σ → Op → ω) (o : Op)
    (x : σ × List (Event Op Resp)) (r : Resp o) (y : σ × List (Event Op Resp)) : Prop :=
  exec (choice x.1 o) o x.1 = some (r, y.1) ∧ y.2 = x.2 ++ [⟨o, r⟩]

/-- A program that performs enabled operations only has a run with the given choices, at the end of
which holds what it ensures. -/
theorem Ensures.exists_log {choice : σ → Op → ω} {P : σ × List (Event Op Resp) → Op → Prop}
    {Q : α → σ × List (Event Op Resp) → Prop} {p : Prog Op Resp α}
    (hEnabled : ∀ x o, P x o → (exec (choice x.1 o) o x.1).isSome = true)
    (hp : p.Ensures (Chosen exec choice) P Q (s, h)) :
    ∃ ws a t h', p.log exec ws s = some (a, t, h') ∧ Q a (t, h ++ h') := by
  induction p generalizing s h with
  | ret a =>
    refine ⟨[], a, s, [], rfl, ?_⟩
    rw [List.append_nil]
    exact hp
  | op o k ih =>
    obtain ⟨⟨r, u⟩, hExec⟩ := Option.isSome_iff_exists.mp (hEnabled _ o hp.1)
    obtain ⟨ws, a, t, h', hLog, hQ⟩ := ih r (hp.2 r (u, h ++ [⟨o, r⟩]) ⟨hExec, rfl⟩)
    refine ⟨choice s o :: ws, a, t, ⟨o, r⟩ :: h', by simp [log, hExec, hLog], ?_⟩
    rwa [List.append_assoc] at hQ

/-- The events of a run are operations that the program performs. -/
theorem Performs.of_log {A : Op → Prop} {p : Prog Op Resp α} {ws : List ω} {a : α}
    (hp : p.Performs A) (hLog : p.log exec ws s = some (a, t, h)) : ∀ e ∈ h, A e.op := by
  have hAlong : p.Along (fun _ _ => True) (fun _ h => ∀ e ∈ h, A e.op) [] := by
    refine hp.ensures (fun _ _ _ _ => trivial) (fun o h r h' ho hOld hNext => ?_) nofun
    subst hNext
    intro e he
    rcases List.mem_append.mp he with he | he
    · exact hOld e he
    · rw [List.mem_singleton.mp he]
      exact ho
  exact (hAlong.of_log hLog).2

/-- Two runs with the same choices, from a state and from the one that `f` makes of it, are the same
when as much is observed of both: `obs` is what is observed of an event, and an operation whose
answers look alike has been answered alike. -/
theorem Along.log_agree {β : Type} {P : List (Event Op Resp) → Op → Prop}
    {Q : α → List (Event Op Resp) → Prop} {p : Prog Op Resp α} {ws : List ω} {a a' : α} {t' : σ}
    {h₁ h₁' : List (Event Op Resp)} (hp : p.Along P Q h) (obs : Event Op Resp → Option β)
    (f : σ → σ)
    (hStep : ∀ h₂ w o u r v r' v', Trace exec s h₂ u → P (h ++ h₂) o → exec w o u = some (r, v) →
      exec w o (f u) = some (r', v') → v' = f v ∧
        ((obs ⟨o, r⟩).isSome = (obs ⟨o, r'⟩).isSome) ∧ (obs ⟨o, r⟩ = obs ⟨o, r'⟩ → r = r'))
    (hLog : p.log exec ws s = some (a, t, h₁)) (hLog' : p.log exec ws (f s) = some (a', t', h₁'))
    (hObs : h₁.filterMap obs = h₁'.filterMap obs) : a' = a ∧ t' = f t ∧ h₁' = h₁ := by
  induction p generalizing s h ws h₁ h₁' with
  | ret b =>
    cases ws with
    | nil =>
      cases hLog
      cases hLog'
      exact ⟨rfl, rfl, rfl⟩
    | cons => cases hLog
  | op o k ih =>
    cases ws with
    | nil => cases hLog
    | cons w ws =>
      obtain ⟨⟨r, u⟩, hExec, hRest⟩ := Option.bind_eq_some_iff.mp hLog
      obtain ⟨⟨b, v, l⟩, hTail, hEq⟩ := Option.map_eq_some_iff.mp hRest
      cases hEq
      obtain ⟨⟨r', u'⟩, hExec', hRest'⟩ := Option.bind_eq_some_iff.mp hLog'
      obtain ⟨⟨b', v', l'⟩, hTail', hEq'⟩ := Option.map_eq_some_iff.mp hRest'
      cases hEq'
      have hP : P (h ++ []) o := by
        rw [List.append_nil]
        exact hp.1
      obtain ⟨rfl, hSome, hSame⟩ := hStep [] w o s r u r' u' (.nil s) hP hExec hExec'
      -- both observations are missing, or both head their lists
      have hHead : obs ⟨o, r⟩ = obs ⟨o, r'⟩ ∧ l.filterMap obs = l'.filterMap obs := by
        cases hr : obs ⟨o, r⟩ <;> cases hr' : obs ⟨o, r'⟩ <;> simp_all
      obtain rfl := hSame hHead.1
      obtain ⟨rfl, rfl, rfl⟩ := ih r (hp.2 r _ rfl)
        (fun h₂ w' o' u' r' v' r'' v'' hTrace hP' hE hE' => by
          rw [List.append_assoc] at hP'
          exact hStep (⟨o, r⟩ :: h₂) w' o' u' r' v' r'' v'' (.cons hExec hTrace) hP' hE hE')
        hTail hTail' hHead.2
      exact ⟨rfl, rfl, rfl⟩

/-- A run of a sequence, from the runs of its parts. -/
theorem log_bind {p : Prog Op Resp α} {f : α → Prog Op Resp β} {ws ws' : List ω} {a : α} {b : β}
    {u : σ} (hp : p.log exec ws s = some (a, t, h)) (hf : (f a).log exec ws' t = some (b, u, h')) :
    (p >>= f).log exec (ws ++ ws') s = some (b, u, h ++ h') := by
  induction p generalizing s h ws with
  | ret c =>
    cases ws with
    | nil =>
      cases hp
      exact hf
    | cons => cases hp
  | op o k ih =>
    cases ws with
    | nil => cases hp
    | cons w ws =>
      obtain ⟨⟨r, v⟩, hExec, hRest⟩ := Option.bind_eq_some_iff.mp hp
      obtain ⟨⟨c, _, h₁⟩, hTail, hEq⟩ := Option.map_eq_some_iff.mp hRest
      cases hEq
      have hNext := ih r hTail
      simp [log, hExec, hNext]

theorem log_exceptT_bind {x : ExceptT ε (Prog Op Resp) α} {f : α → ExceptT ε (Prog Op Resp) β}
    {ws ws' : List ω} {a : α} {b : Except ε β} {u : σ}
    (hx : x.run.log exec ws s = some (.ok a, t, h))
    (hf : (f a).run.log exec ws' t = some (b, u, h')) :
    (x >>= f).run.log exec (ws ++ ws') s = some (b, u, h ++ h') :=
  log_bind (p := x.run) hx hf

theorem Trace.mono {exec' : ω' → (o : Op) → σ → Option (Resp o × σ)}
    (hExec : ∀ w o s r t, exec w o s = some (r, t) → ∃ w', exec' w' o s = some (r, t))
    (hTrace : Trace exec s h t) : Trace exec' s h t := by
  induction hTrace with
  | nil s => exact .nil s
  | cons hStep _ ih =>
    obtain ⟨w', hStep'⟩ := hExec _ _ _ _ _ hStep
    exact .cons hStep' ih

end Log

/-- The events may be followed by a value that is computed from them one by one. -/
theorem Ensures.along {τ : Type} {f : τ → Event Op Resp → τ} {t : τ} {P : τ → Op → Prop}
    {Q : α → τ → Prop} {p : Prog Op Resp α} {h : List (Event Op Resp)}
    (hp : p.Ensures (fun o t r t' => t' = f t ⟨o, r⟩) P Q (h.foldl f t)) :
    p.Along (fun h o => P (h.foldl f t) o) (fun a h => Q a (h.foldl f t)) h := by
  induction p generalizing h with
  | ret a => exact hp
  | op o k ih =>
    refine ⟨hp.1, fun r h' hNext => ?_⟩
    subst hNext
    refine ih r ?_
    rw [List.foldl_append]
    exact hp.2 r _ rfl

end Prog

/-- A running program and what it has done so far. -/
structure Thread (Op : Type) (Resp : Op → Type) (α : Type) where
  hist : List (Prog.Event Op Resp)
  prog : Prog Op Resp α

/-- Programs that run side by side over one store. -/
structure Pool (ι σ Op : Type) (Resp : Op → Type) (α : Type) where
  store : σ
  thread : ι → Thread Op Resp α

namespace Pool

variable {ι σ ω Op α : Type} {Resp : Op → Type}

/-- The pool in which no program has begun. -/
def start (s : σ) (prog : ι → Prog Op Resp α) : Pool ι σ Op Resp α := ⟨s, fun i => ⟨[], prog i⟩⟩

def hist (p : Pool ι σ Op Resp α) (i : ι) : List (Prog.Event Op Resp) := (p.thread i).hist

/-- The operation that a program is about to perform. -/
def next (p : Pool ι σ Op Resp α) (i : ι) : Option Op :=
  match (p.thread i).prog with
  | .ret _ => none
  | .op o _ => some o

variable [DecidableEq ι]

/-- Program `i` performs its next operation. -/
def machine (exec : ι → ω → (o : Op) → σ → Option (Resp o × σ)) :
    Machine (Pool ι σ Op Resp α) (ι × ω) where
  step p a :=
    match (p.thread a.1).prog with
    | .ret _ => none
    | .op o k => (exec a.1 a.2 o p.store).map fun (r, s) =>
        ⟨s, Function.update p.thread a.1 ⟨p.hist a.1 ++ [⟨o, r⟩], k r⟩⟩

variable {exec : ι → ω → (o : Op) → σ → Option (Resp o × σ)} {p q : Pool ι σ Op Resp α}

theorem step_cases {i : ι} {w : ω} (h : (machine exec).step p (i, w) = some q) :
    ∃ o k r s, (p.thread i).prog = .op o k ∧ exec i w o p.store = some (r, s) ∧
      q = ⟨s, Function.update p.thread i ⟨p.hist i ++ [⟨o, r⟩], k r⟩⟩ := by
  simp only [machine] at h
  cases hProg : (p.thread i).prog with
  | ret a => rw [hProg] at h; cases h
  | op o k =>
    rw [hProg] at h
    obtain ⟨⟨r, s⟩, hExec, rfl⟩ := Option.map_eq_some_iff.mp h
    exact ⟨o, k, r, s, rfl, hExec, rfl⟩

/-- A step, in a pool of programs that meet `P` along their way. -/
theorem step_along {P : ι → List (Prog.Event Op Resp) → Op → Prop}
    {Q : ι → α → List (Prog.Event Op Resp) → Prop} {i : ι} {w : ω}
    (h : (machine exec).step p (i, w) = some q)
    (hP : ∀ i, (p.thread i).prog.Along (P i) (Q i) (p.hist i)) :
    ∃ o r, p.next i = some o ∧ P i (p.hist i) o ∧ exec i w o p.store = some (r, q.store) ∧
      q.hist = Function.update p.hist i (p.hist i ++ [⟨o, r⟩]) ∧
      ∀ j, (q.thread j).prog.Along (P j) (Q j) (q.hist j) := by
  obtain ⟨o, k, r, s, hProg, hExec, rfl⟩ := step_cases h
  have hAlong := hP i
  rw [hProg] at hAlong
  have hHist : ∀ j, (hist ⟨s, Function.update p.thread i ⟨p.hist i ++ [⟨o, r⟩], k r⟩⟩ j :
      List (Prog.Event Op Resp)) = Function.update p.hist i (p.hist i ++ [⟨o, r⟩]) j := by
    intro j
    by_cases hj : j = i
    · subst hj
      simp [hist]
    · simp [hist, hj]
  refine ⟨o, r, by simp [next, hProg], hAlong.1, hExec, funext hHist, fun j => ?_⟩
  rw [hHist j]
  by_cases hj : j = i
  · subst hj
    simp only [Function.update_self]
    exact hAlong.2 r _ rfl
  · simp only [Function.update_of_ne hj]
    exact hP j

/-- What the steps of programs that meet `P` along their way preserve, every run of the pool
preserves. -/
theorem runs_invariant {G : Pool ι σ Op Resp α → ι × ω → Prop}
    {P : ι → List (Prog.Event Op Resp) → Op → Prop}
    {Q : ι → α → List (Prog.Event Op Resp) → Prop}
    {I : σ → (ι → List (Prog.Event Op Resp)) → Prop}
    (hStep : ∀ (p : Pool ι σ Op Resp α) i w o r s, G p (i, w) → p.next i = some o →
      P i (p.hist i) o → I p.store p.hist → exec i w o p.store = some (r, s) →
      I s (Function.update p.hist i (p.hist i ++ [⟨o, r⟩])))
    {as : List (ι × ω)} (hRun : (machine exec).Runs G p as q)
    (hP : ∀ i, (p.thread i).prog.Along (P i) (Q i) (p.hist i)) (hI : I p.store p.hist) :
    I q.store q.hist ∧ ∀ i, (q.thread i).prog.Along (P i) (Q i) (q.hist i) := by
  refine hRun.invariant (I := fun p => I p.store p.hist ∧
    ∀ i, (p.thread i).prog.Along (P i) (Q i) (p.hist i)) ?_ ⟨hI, hP⟩
  rintro p ⟨i, w⟩ q hG hq ⟨hI, hP⟩
  obtain ⟨o, r, hNext, hOp, hExec, hHist, hAlong⟩ := step_along hq hP
  exact ⟨hHist ▸ hStep p i w o r q.store hG hNext hOp hI hExec, hAlong⟩

/-- What a program has done in a run, it did at one of the steps. -/
theorem event_of_runs {G : Pool ι σ Op Resp α → ι × ω → Prop} {as : List (ι × ω)}
    (hRun : (machine exec).Runs G p as q) {i : ι} {e : Prog.Event Op Resp} (he : e ∈ q.hist i) :
    e ∈ p.hist i ∨ ∃ a ∈ as, a.1 = i ∧ ∃ s t, exec i a.2 e.op s = some (e.resp, t) := by
  induction hRun with
  | nil => exact .inl he
  | @cons p t q a as _ hStep _ ih =>
    obtain hOld | ⟨b, hb, hAct⟩ := ih he
    · obtain ⟨o, k, r, s, -, hExec, rfl⟩ := step_cases (i := a.1) (w := a.2) hStep
      by_cases hi : i = a.1
      · subst hi
        simp only [hist, Function.update_self] at hOld
        rcases List.mem_append.mp hOld with hOld | hNew
        · exact .inl hOld
        · rw [List.mem_singleton.mp hNew]
          exact .inr ⟨a, List.mem_cons_self, rfl, p.store, s, hExec⟩
      · simp only [hist, Function.update_of_ne hi] at hOld
        exact .inl hOld
    · exact .inr ⟨b, List.mem_cons_of_mem a hb, hAct⟩

end Pool

end Lib
