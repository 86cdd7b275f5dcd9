import Mathlib.Algebra.Order.Ring.Unbundled.Rat
import Mathlib.Data.List.Sort
import Mathlib.Data.Rat.Defs
import Richter.Interactions.Response
import Richter.Lib.Prog
import Richter.Lib.Table

/-! The tables of lessons, interactions and attempts, and the operations of the interactions service
on them (`sql/queries/lesson_attempts.sql`).  Scores are rationals; how
their sums are rounded is up to the service. -/

namespace Richter.Interactions

open Lib

/-- A row of `lessons`. -/
structure Lesson where
  id : UUID
  maxAttempts : Nat
  durationSeconds : Option Nat
  deriving DecidableEq, Repr

/-- A row of `lesson_interactions`. -/
structure LessonInteraction where
  id : UUID
  lessonId : UUID
  kind : String
  orderIndex : Int
  deriving DecidableEq, Repr

/-- A row of `lesson_attempts`. -/
structure LessonAttempt where
  id : UUID
  userId : UUID
  lessonId : UUID
  totalScore : ℚ
  maxScore : ℚ
  status : String
  attemptCount : Nat
  videoWatchFraction : Option ℚ
  deriving DecidableEq

def LessonAttempt.key (a : LessonAttempt) : UUID × UUID := (a.userId, a.lessonId)

/-- A row of `lesson_attempt_responses`. -/
structure LessonAttemptResponse where
  attemptId : UUID
  interactionId : UUID
  response : ResponseJSON
  score : ℚ
  maxScore : ℚ
  feedback : String
  timeToAnswerMs : Option Int
  replayCount : Int
  deriving DecidableEq

def LessonAttemptResponse.key (r : LessonAttemptResponse) : UUID × UUID :=
  (r.attemptId, r.interactionId)

structure Db where
  lessons : Table Lesson Lesson.id
  lessonInteractions : Table LessonInteraction LessonInteraction.id
  lessonAttempts : Table LessonAttempt LessonAttempt.key
  lessonAttemptResponses : Table LessonAttemptResponse LessonAttemptResponse.key

structure UpsertLessonAttemptParams where
  lessonId : UUID
  userId : UUID
  totalScore : ℚ
  maxScore : ℚ
  status : String
  videoWatchFraction : Option ℚ
  shouldIncrement : Bool
  deriving DecidableEq

/-- The row that `UpsertLessonAttempt` inserts. -/
def UpsertLessonAttemptParams.row (p : UpsertLessonAttemptParams) (id : UUID) : LessonAttempt where
  id := id
  userId := p.userId
  lessonId := p.lessonId
  totalScore := p.totalScore
  maxScore := p.maxScore
  status := p.status
  attemptCount := 1
  videoWatchFraction := p.videoWatchFraction

/-- `GREATEST(COALESCE(old, 0), new)`, which ignores a `NULL`. -/
def greatest (old new : Option ℚ) : Option ℚ :=
  match new with
  | none => some (old.getD 0)
  | some f => some (max (old.getD 0) f)

/-- What `UpsertLessonAttempt` makes of the row that is there. -/
def LessonAttempt.resubmit (p : UpsertLessonAttemptParams) (a : LessonAttempt) : LessonAttempt where
  id := a.id
  userId := a.userId
  lessonId := a.lessonId
  totalScore := p.totalScore
  maxScore := p.maxScore
  status := p.status
  attemptCount := a.attemptCount + if p.shouldIncrement then 1 else 0
  videoWatchFraction := greatest a.videoWatchFraction p.videoWatchFraction

@[simp] theorem LessonAttempt.resubmit_key (p : UpsertLessonAttemptParams) (a : LessonAttempt) :
    (a.resubmit p).key = a.key := rfl

structure UpsertAttemptResponseParams where
  interactionId : UUID
  response : ResponseJSON
  score : ℚ
  maxScore : ℚ
  feedback : String
  timeToAnswerMs : Option Int
  replayCount : Int
  deriving DecidableEq

/-- The row that `UpsertAttemptResponse` inserts. -/
def UpsertAttemptResponseParams.row (p : UpsertAttemptResponseParams) (attemptId : UUID) :
    LessonAttemptResponse where
  attemptId := attemptId
  interactionId := p.interactionId
  response := p.response
  score := p.score
  maxScore := p.maxScore
  feedback := p.feedback
  timeToAnswerMs := p.timeToAnswerMs
  replayCount := p.replayCount

/-- What `UpsertAttemptResponse` makes of the row that is there. -/
def LessonAttemptResponse.replace (p : UpsertAttemptResponseParams) (r : LessonAttemptResponse) :
    LessonAttemptResponse := { p.row r.attemptId with interactionId := r.interactionId }

@[simp] theorem LessonAttemptResponse.replace_key (p : UpsertAttemptResponseParams)
    (r : LessonAttemptResponse) : (r.replace p).key = r.key := rfl

/-- `UpsertLessonAttempt`; a new row gets the given id. -/
def upsertLessonAttempt (p : UpsertLessonAttemptParams) (id : UUID) (db : Db) : Db :=
  { db with
    lessonAttempts := db.lessonAttempts.upsert (p.row id) (.resubmit p)
      (LessonAttempt.resubmit_key p) }

/-- `UpsertAttemptResponse`. -/
def upsertAttemptResponse (attemptId : UUID) (db : Db) (p : UpsertAttemptResponseParams) : Db :=
  { db with
    lessonAttemptResponses := db.lessonAttemptResponses.upsert (p.row attemptId) (.replace p)
      (LessonAttemptResponse.replace_key p) }

/-- `ListLessonInteractions`. -/
def listLessonInteractions (lessonId : UUID) (limit offset : Nat) (db : Db) :
    List LessonInteraction :=
  (((db.lessonInteractions.rows.filter fun i => i.lessonId = lessonId).insertionSort
    fun i j => i.orderIndex < j.orderIndex ∨ (i.orderIndex = j.orderIndex ∧ i.id ≤ j.id)).drop
      offset).take limit

/-- `ListAttemptResponses`: the responses of an attempt with their interactions' kinds, in the
order of the interactions. -/
def listAttemptResponses (attemptId : UUID) (db : Db) : List (LessonAttemptResponse × String) :=
  (((db.lessonAttemptResponses.rows.filter fun r => r.attemptId = attemptId).filterMap fun r =>
    (db.lessonInteractions.find r.interactionId).map fun i => (r, i)).insertionSort
      fun x y => x.2.orderIndex ≤ y.2.orderIndex).map fun x => (x.1, x.2.kind)

structure Grade where
  score : ℚ
  maxScore : ℚ
  feedback : String
  deriving DecidableEq

/-- A grade in the cache of FoundationDB, with the text of the response that it is for. -/
structure FdbTempGradeCache where
  responsePayload : String
  grade : Grade
  deriving DecidableEq

/-- The operations of `SubmitAttempt`.  The upsert transaction is one: its first statement locks
the attempt's row until the commit, so no other transaction on the attempt runs in between. -/
inductive Op
  | getLessonByID (id : UUID)
  | getMyLessonAttempt (lessonId userId : UUID)
  | listLessonInteractions (lessonId : UUID) (limit offset : Nat)
  | listAttemptResponses (attemptId : UUID)
  | tempGrade (userId lessonId interactionId : UUID)
  | grade (interaction : LessonInteraction) (response : ResponseJSON)
  | watchCoverageFraction (userId lessonId : UUID) (durationSeconds : Nat)
  | upsertAttempt (attempt : UpsertLessonAttemptParams)
      (responses : List UpsertAttemptResponseParams)
  | deleteTempGrade (userId lessonId interactionId : UUID)
  | deleteAudio (objectKey : String)
  deriving DecidableEq

abbrev Op.Resp : Op → Type
  | .getLessonByID _ => Except DbError Lesson
  | .getMyLessonAttempt .. => Except DbError LessonAttempt
  | .listLessonInteractions .. => Except DbError (List LessonInteraction)
  | .listAttemptResponses _ => Except DbError (List (LessonAttemptResponse × String))
  | .tempGrade .. => Option FdbTempGradeCache
  | .grade .. => Grade
  | .watchCoverageFraction .. => Option ℚ
  | .upsertAttempt .. => Except DbError (LessonAttempt × List (LessonAttemptResponse × String))
  | .deleteTempGrade .. | .deleteAudio _ => Unit

/-- What the environment decides: whether a statement or the transaction fails, what FoundationDB
holds, how the response is graded, and the id that `uuidv7()` makes. -/
structure Env where
  failure : Option DbError
  cached : Option FdbTempGradeCache
  graded : Grade
  fraction : Option ℚ
  newID : UUID

/-- The upsert transaction.  A new id is not one of an attempt (`none`), and a response to an
interaction that is gone violates its foreign key. -/
def upsertAttempt (p : UpsertLessonAttemptParams) (rs : List UpsertAttemptResponseParams)
    (newID : UUID) (db : Db) :
    Option (Except DbError (LessonAttempt × List (LessonAttemptResponse × String)) × Db) :=
  if db.lessonAttempts.rows.any fun a => a.id = newID then none
  else
    let db₁ := upsertLessonAttempt p newID db
    match db₁.lessonAttempts.find (p.userId, p.lessonId) with
    | none => none
    | some a =>
      if rs.all fun r => (db.lessonInteractions.find r.interactionId).isSome then
        let db₂ := rs.foldl (upsertAttemptResponse a.id) db₁
        some (.ok (a, listAttemptResponses a.id db₂), db₂)
      else some (.error (.pg "23503"), db)

/-- What a failing statement answers. -/
def orFailure {α : Type} (failure : Option DbError) (r : Except DbError α) : Except DbError α :=
  match failure with
  | some e => .error e
  | none => r

@[simp] theorem orFailure_eq_ok {α : Type} {failure : Option DbError} {r : Except DbError α}
    {a : α} : orFailure failure r = .ok a ↔ failure = none ∧ r = .ok a := by
  cases failure <;> simp [orFailure]

def exec (env : Env) (o : Op) (db : Db) : Option (o.Resp × Db) :=
  match o with
  | .getLessonByID id => some (orFailure env.failure (one (db.lessons.find id)), db)
  | .getMyLessonAttempt lessonId userId =>
      some (orFailure env.failure (one (db.lessonAttempts.find (userId, lessonId))), db)
  | .listLessonInteractions lessonId limit offset =>
      some (orFailure env.failure (.ok (listLessonInteractions lessonId limit offset db)), db)
  | .listAttemptResponses attemptId =>
      some (orFailure env.failure (.ok (listAttemptResponses attemptId db)), db)
  | .tempGrade .. => some (env.cached, db)
  | .grade .. => some (env.graded, db)
  | .watchCoverageFraction .. => some (env.fraction, db)
  | .upsertAttempt p rs =>
      match env.failure with
      | some e => some (.error e, db)
      | none => upsertAttempt p rs env.newID db
  | .deleteTempGrade .. | .deleteAudio _ => some ((), db)

/-- Only the upsert transaction writes to the database. -/
theorem exec_cases {env : Env} {o : Op} {db db' : Db} {r : o.Resp}
    (h : exec env o db = some (r, db')) :
    db' = db ∨ ∃ p rs a, o = .upsertAttempt p rs ∧
      (∀ b ∈ db.lessonAttempts.rows, b.id ≠ env.newID) ∧
      (upsertLessonAttempt p env.newID db).lessonAttempts.find (p.userId, p.lessonId) = some a ∧
      db' = rs.foldl (upsertAttemptResponse a.id) (upsertLessonAttempt p env.newID db) := by
  cases o with
  | upsertAttempt p rs =>
    simp only [exec] at h
    split at h
    · cases h; exact .inl rfl
    · simp only [upsertAttempt] at h
      split at h
      · cases h
      · next hFresh =>
        split at h
        · cases h
        · next a ha =>
          split at h
          · cases h
            refine .inr ⟨p, rs, a, rfl, ?_, ha, rfl⟩
            simpa using hFresh
          · cases h; exact .inl rfl
  | _ => cases h; exact .inl rfl

/-- A transaction that fails leaves the database as it is. -/
theorem exec_upsert_error {env : Env} {p : UpsertLessonAttemptParams}
    {rs : List UpsertAttemptResponseParams} {db db' : Db} {e : DbError}
    (h : exec env (.upsertAttempt p rs) db = some (.error e, db')) : db' = db := by
  simp only [exec] at h
  split at h
  · exact (congrArg Prod.snd (Option.some.inj h)).symm
  · simp only [upsertAttempt] at h
    split at h
    · cases h
    · split at h
      · cases h
      · split at h
        · cases h
        · exact (congrArg Prod.snd (Option.some.inj h)).symm

section Upsert

variable (p : UpsertLessonAttemptParams) (id : UUID) (db : Db)

@[simp] theorem upsertLessonAttempt_lessons :
    (upsertLessonAttempt p id db).lessons = db.lessons := rfl

@[simp] theorem upsertLessonAttempt_responses :
    (upsertLessonAttempt p id db).lessonAttemptResponses = db.lessonAttemptResponses := rfl

/-- The row of the attempt after its upsert. -/
def upserted : LessonAttempt :=
  (db.lessonAttempts.find (p.userId, p.lessonId)).elim (p.row id) (.resubmit p)

theorem find_upsertLessonAttempt (k : UUID × UUID) :
    (upsertLessonAttempt p id db).lessonAttempts.find k =
      if k = (p.userId, p.lessonId) then some (upserted p id db) else db.lessonAttempts.find k := by
  rw [upsertLessonAttempt, Table.find_upsert]
  by_cases hk : k = (p.userId, p.lessonId)
  · rw [if_pos hk, if_pos (show k = (p.row id).key from hk), hk, upserted]
  · rw [if_neg hk, if_neg (show k ≠ (p.row id).key from hk)]

variable (attemptId : UUID) (rs : List UpsertAttemptResponseParams)

@[simp] theorem foldl_upsertAttemptResponse_lessons :
    (rs.foldl (upsertAttemptResponse attemptId) db).lessons = db.lessons := by
  induction rs generalizing db with
  | nil => rfl
  | cons r rs ih => exact ih _

@[simp] theorem foldl_upsertAttemptResponse_lessonInteractions :
    (rs.foldl (upsertAttemptResponse attemptId) db).lessonInteractions =
      db.lessonInteractions := by
  induction rs generalizing db with
  | nil => rfl
  | cons r rs ih => exact ih _

@[simp] theorem foldl_upsertAttemptResponse_lessonAttempts :
    (rs.foldl (upsertAttemptResponse attemptId) db).lessonAttempts = db.lessonAttempts := by
  induction rs generalizing db with
  | nil => rfl
  | cons r rs ih => exact ih _

end Upsert

end Richter.Interactions
