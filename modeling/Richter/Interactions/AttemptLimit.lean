import Richter.Interactions.SubmitAttempt

/-! The limit on attempts, while submissions run side by side.  The check reads the attempt before
the grading, the transaction adds one to what is stored by then, and nothing ties the two. -/

namespace Richter.Interactions

open Lib

/-- No attempt on a limited lesson counts more than the limit. -/
def WithinLimit (db : Db) : Prop :=
  ∀ a ∈ db.lessonAttempts.rows, ∀ lesson, db.lessons.find a.lessonId = some lesson →
    0 < lesson.maxAttempts → a.attemptCount ≤ lesson.maxAttempts

/-- Whether a submission that is about to add an attempt to those stored, on a limited lesson, adds
it to no more than its limit check has read. -/
def limitReadStillHolds (p : Submissions) (a : Nat × Env) : Bool :=
  match p.next a.1 with
  | some (.upsertAttempt q _) =>
      !q.shouldIncrement || (p.store.lessons.find q.lessonId).all (fun l => l.maxAttempts = 0) ||
        match p.store.lessonAttempts.find (q.userId, q.lessonId), limitRead (p.hist a.1) with
        | none, _ => true
        | some stored, some (.ok read) => stored.attemptCount ≤ read.attemptCount
        | some _, _ => false
  | _ => true

/-- The lessons are as the submissions have read them, and the limit is kept. -/
structure Limited (db : Db) (hist : Nat → History) : Prop where
  lessons : ∀ i id lesson, ⟨.getLessonByID id, .ok lesson⟩ ∈ hist i →
    db.lessons.find id = some lesson
  within : WithinLimit db

theorem exec_getLessonByID {env : Env} {id : UUID} {db db' : Db} {lesson : Lesson}
    (h : exec env (.getLessonByID id) db = some (.ok lesson, db')) :
    db.lessons.find id = some lesson := by
  simp only [exec, Option.some.injEq, Prod.mk.injEq, orFailure_eq_ok, one_eq_ok] at h
  exact h.1.2

/-- An upsert whose limit check still holds keeps the limit. -/
theorem upserted_withinLimit {p : UpsertLessonAttemptParams} {id : UUID} {db : Db}
    {lesson : Lesson} (hLesson : db.lessons.find p.lessonId = some lesson)
    (hMax : 0 < lesson.maxAttempts) (hWithin : WithinLimit db)
    (hIncrement : p.shouldIncrement = true → ∀ stored,
      db.lessonAttempts.find (p.userId, p.lessonId) = some stored →
      stored.attemptCount < lesson.maxAttempts) :
    (upserted p id db).attemptCount ≤ lesson.maxAttempts := by
  rw [upserted]
  cases hFind : db.lessonAttempts.find (p.userId, p.lessonId) with
  | none => exact hMax
  | some stored =>
    obtain ⟨hMem, hKey⟩ := Table.find_eq_some_iff.mp hFind
    simp only [LessonAttempt.key, Prod.mk.injEq] at hKey
    simp only [Option.elim, LessonAttempt.resubmit]
    split
    · next hInc => exact hIncrement hInc stored hFind
    · exact hWithin stored hMem lesson (hKey.2 ▸ hLesson) hMax

theorem step_limited {request : Nat → Except Error UUID × SubmitAttemptRequest} (p : Submissions)
    (i : Nat) (env : Env) (o : Op) (r : o.Resp) (db' : Db)
    (hG : limitReadStillHolds p (i, env) = true) (hNext : p.next i = some o)
    (hSubmits : Submits s (request i).1 (request i).2 (p.hist i) o) (hI : Limited p.store p.hist)
    (hExec : exec env o p.store = some (r, db')) :
    Limited db' (Function.update p.hist i (p.hist i ++ [⟨o, r⟩])) := by
  have hLessons : db'.lessons = p.store.lessons := by
    obtain rfl | ⟨q, rs, a, rfl, _, _, rfl⟩ := exec_cases hExec
    · rfl
    · simp
  refine ⟨fun j id lesson hMem => ?_, ?_⟩
  · rw [hLessons]
    by_cases hj : j = i
    · subst hj
      rw [Function.update_self, List.mem_append, List.mem_singleton] at hMem
      obtain hMem | hMem := hMem
      · exact hI.lessons j id lesson hMem
      · cases hMem
        exact exec_getLessonByID hExec
    · rw [Function.update_of_ne hj] at hMem
      exact hI.lessons j id lesson hMem
  · obtain rfl | ⟨q, rs, a, rfl, _, _, rfl⟩ := exec_cases hExec
    · exact hI.within
    · intro b hb lesson hLesson hMax
      rw [Table.mem_rows_iff, foldl_upsertAttemptResponse_lessonAttempts,
        find_upsertLessonAttempt] at hb
      rw [hLessons] at hLesson
      split at hb
      · next hKey =>
        simp only [LessonAttempt.key, Prod.mk.injEq] at hKey
        rw [hKey.2] at hLesson
        cases hb
        refine upserted_withinLimit hLesson hMax hI.within fun hInc stored hStored => ?_
        -- What the limit check has read is not below what is stored.
        obtain ⟨lesson', hMem, hLimit⟩ := hSubmits.2
        have hSame : lesson' = lesson :=
          Option.some_inj.mp ((hI.lessons i _ _ hMem).symm.trans hLesson)
        subst hSame
        obtain ⟨read, hRead, hLeft⟩ := hLimit hMax
        simp only [limitReadStillHolds, hNext, hInc, hLesson, hStored, hRead, Bool.not_true,
          Bool.false_or, Option.all_some, Bool.or_eq_true, decide_eq_true_eq] at hG
        obtain hZero | hHolds := hG
        · exact absurd hZero hMax.ne'
        · cases read with
          | error e => cases hHolds
          | ok read => exact Nat.lt_of_le_of_lt (of_decide_eq_true hHolds) (hLeft read rfl)
      · exact hI.within b (Table.mem_rows_iff.mpr hb) lesson hLesson hMax

/-- In every run of submissions side by side in which an attempt is only added to what the
submission's own limit check has read, no attempt comes to count more than the limit. -/
theorem attempts_within_limit {s : InteractionsSvc} {db : Db}
    {request : Nat → Except Error UUID × SubmitAttemptRequest} {steps : List (Nat × Env)}
    {p : Submissions} (hStart : WithinLimit db)
    (hRun : submissions.Runs (fun p a => limitReadStillHolds p a = true)
      (.start s db request) steps p) : WithinLimit p.store :=
  (submissions_invariant (I := Limited) step_limited hRun ⟨nofun, hStart⟩).within

/-- A lesson with one question that may be tried once. -/
def oneTry : Db where
  lessons := .ofList [⟨1, 1, none⟩]
  lessonInteractions := .ofList [⟨10, 1, "mcq", 0⟩]
  lessonAttempts := .empty
  lessonAttemptResponses := .empty

/-- The student answers the question. -/
def tries : Nat → Except Error UUID × SubmitAttemptRequest :=
  fun _ => (.ok 100, ⟨1, [⟨10, 0, 0, .mcqSelected 0⟩], 0⟩)

/-- Nothing fails, and the answer is right. -/
def calm (newID : UUID) : Env := ⟨none, none, ⟨1, 1, ""⟩, none, newID⟩

/-- One submission: the lesson, the limit check, the interactions, the grade, the previous attempt
and the transaction. -/
def oneSubmission : List (Nat × Env) := List.replicate 6 (0, calm 1000)

theorem oneTry_withinLimit : WithinLimit oneTry := nofun

theorem attempts_within_limit_oneTry :
    ∃ p, submissions.run (.start ⟨false, false, 500, .float32⟩ oneTry tries) oneSubmission = some p ∧
      WithinLimit p.store :=
  ⟨_, rfl, @attempts_within_limit ⟨false, false, 500, .float32⟩ oneTry tries oneSubmission _
    oneTry_withinLimit (Machine.Runs.of_restrict rfl)⟩

/-- Both submissions have read that there is no attempt before either stores one. -/
def bothUnderLimit : List (Nat × Env) :=
  List.replicate 5 (0, calm 1000) ++ List.replicate 6 (1, calm 1001) ++ [(0, calm 1000)]

/-- Two submissions at once, on a lesson that may be tried once, are counted as two attempts. -/
theorem concurrent_submissions_exceed_limit :
    ¬ ∀ (s : InteractionsSvc) (db : Db) (request : Nat → Except Error UUID × SubmitAttemptRequest)
      (steps : List (Nat × Env)) (p : Submissions), WithinLimit db →
      submissions.run (.start s db request) steps = some p → WithinLimit p.store := by
  intro h
  have hTwo := h ⟨false, false, 500, .float32⟩ oneTry tries bothUnderLimit _ oneTry_withinLimit rfl
    _ (List.mem_singleton_self _) ⟨1, 1, none⟩ rfl (by decide)
  revert hTwo
  decide

end Richter.Interactions
