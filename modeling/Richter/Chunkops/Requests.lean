import Richter.Chunkops.Effects

/-! The requests of the chunk editor, served one after another. -/

namespace Richter.Chunkops

open Lib
open Lessons (Env LessonTranscriptChunk Segment)

inductive Request
  | split (chunkID : UUID) (splitAt : ℚ)
  | adjustBoundary (prevID nextID : UUID) (newBoundary : ℚ)
  | merge (keepID discardID : UUID)
  | delete (chunkID : UUID)
  | updateSegment (lessonID : UUID) (segmentIndex : Int) (text : String)

/-- The limits of the lists, and what `requireTeacherRole` answers for a lesson. -/
structure Editor where
  teacher : UUID → Except Error Unit
  chunksLimit : Nat
  lessonOpsLimit : Nat

namespace Request

/-- The answer of a request is not looked at. -/
def handler (d : Editor) : Request → Handler Unit
  | .split chunkID splitAt => do
    let _ ← Chunkops.split d.teacher d.chunksLimit chunkID splitAt
    return
  | .adjustBoundary prevID nextID newBoundary => do
    let _ ← Chunkops.adjustBoundary d.teacher prevID nextID newBoundary
    return
  | .merge keepID discardID => do
    let _ ← Chunkops.merge d.teacher keepID discardID
    return
  | .delete chunkID => Chunkops.delete d.teacher chunkID
  | .updateSegment lessonID segmentIndex text => do
    let _ ← Chunkops.updateSegment d.teacher d.lessonOpsLimit lessonID segmentIndex text
    return

/-- What a request does when it succeeds. -/
def Effect (G : Env → Prop) (d : Editor) (e e' : Shown) : Request → Prop
  | .split chunkID splitAt => ∃ chunk row, IsSplit G chunkID splitAt chunk row e e'
  | .adjustBoundary prevID nextID newBoundary =>
      ∃ prev next, IsAdjustment prevID nextID newBoundary prev next e e'
  | .merge keepID discardID => ∃ keep discard, IsMerge keepID discardID keep discard e e'
  | .delete chunkID => ∃ chunk, IsDeletion chunkID chunk e e'
  | .updateSegment lessonID segmentIndex text => e'.content = e.content ∧
      ((∀ env, G env → Calm env) → ∃ segs,
        IsSegmentUpdate d.lessonOpsLimit lessonID segmentIndex text segs e e')

theorem yields_handler {G : Env → Prop} {e : Shown} {s : Store} (d : Editor) (r : Request)
    (h : Reaches G e s) :
    Yields G (r.handler d) (fun _ t => ∃ e', r.Effect G d e e' ∧ Reaches G e' t) s := by
  cases r with
  | split chunkID splitAt =>
    refine Prog.Meets.bind (yields_split _ _ _ _ h) ?_
    rintro _ t ⟨chunk, row, e', hEffect, h⟩
    exact ⟨e', ⟨chunk, row, hEffect⟩, h⟩
  | adjustBoundary prevID nextID newBoundary =>
    refine Prog.Meets.bind (yields_adjustBoundary _ _ _ _ h) ?_
    rintro _ t ⟨prev, next, e', hEffect, h⟩
    exact ⟨e', ⟨prev, next, hEffect⟩, h⟩
  | merge keepID discardID =>
    refine Prog.Meets.bind (yields_merge _ _ _ h) ?_
    rintro _ t ⟨keep, discard, e', hEffect, h⟩
    exact ⟨e', ⟨keep, discard, hEffect⟩, h⟩
  | delete chunkID =>
    refine (yields_delete _ _ h).mono ?_ fun _ => id
    rintro _ t ⟨chunk, e', hEffect, h⟩
    exact ⟨e', ⟨chunk, hEffect⟩, h⟩
  | updateSegment lessonID segmentIndex text =>
    refine Prog.Meets.bind (yields_updateSegment _ _ _ _ _ h) ?_
    rintro _ t ⟨segs, e', hContent, hEffect, h⟩
    exact ⟨e', ⟨hContent, fun hCalm => ⟨segs, hEffect hCalm⟩⟩, h⟩

end Request

/-- The store in which a request begins: no transaction is open, and its context is a new one. -/
def served (s : Lessons.Store) : Store := TxnStore.quiet { s with cancelled := fun _ => false }

/-- A request that succeeds, with what the environment decides in each of its operations. -/
def editing (d : Editor) : Machine Lessons.Store (Request × List Env) where
  step s a :=
    match (a.1.handler d).run.run (exec 0) a.2 (served s) with
    | some (.ok _, t) => some t.committed
    | _ => none

theorem editing_step {d : Editor} {s s' : Lessons.Store} {r : Request} {envs : List Env}
    (G : Env → Prop) (hG : ∀ env ∈ envs, G env) (h : (editing d).step s (r, envs) = some s') :
    ∃ e', r.Effect G d (shown s) e' ∧ s'.content = e'.content ∧
      ((∀ env, G env → Calm env) → shown s' = e') := by
  simp only [editing] at h
  split at h
  · next t hRun =>
    cases h
    have hStart : Reaches G (shown s) (served s) := ⟨rfl, fun _ => ⟨rfl, rfl⟩⟩
    obtain ⟨e', hEffect, hContent, hCalm⟩ := Prog.Ensures.of_run
      (fun env hEnv o s r t hExec => ⟨env, hG env hEnv, hExec⟩) (r.yields_handler d hStart) hRun
    exact ⟨e', hEffect, hContent, fun hAll => (hCalm hAll).1⟩
  · cases h

end Richter.Chunkops
