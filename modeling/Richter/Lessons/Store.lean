import Mathlib.Logic.Function.Basic
import Richter.Lessons.Content
import Richter.Lib.Prog
import Richter.TaskQueue.Rows

/-! What the handlers and the executors of lessons share: the tables of Postgres, the records of
FoundationDB, the per-lesson locks of each worker process, and their contexts.  An operation is a
statement, a transaction, or one access to something else. -/

namespace Richter.Lessons

open Lib
open TaskQueue (Bytes InsertTaskParams Stmt Task TaskTable Timestamptz)

structure Lesson where
  id : UUID
  videoStorageKey : Option String
  durationSeconds : Option Nat
  audioLanguage : String
  language : String
  deriving DecidableEq

/-- An error of an executor: its text, and whether it is `context.Canceled`. -/
structure Fail where
  text : String
  canceled : Bool
  deriving DecidableEq, Repr

def contextCanceled : DbError := .other "context canceled"

def failOf (e : DbError) : Fail := ⟨e.text, e = contextCanceled⟩

/-- `fmt.Errorf` with `%w`. -/
def Fail.wrap (e : Fail) (text : String) : Fail := { e with text := text ++ e.text }

/-- `fmt.Errorf` and `errors.New`. -/
def errorf (text : String) : Fail := ⟨text, false⟩

/-- A row of `lesson_attempts`, as far as it is deleted with the content of its lesson. -/
structure LessonAttempt where
  userId : UUID
  lessonId : UUID
  deriving DecidableEq

/-- A generation batch that was saved for a chunk. -/
structure Batch where
  chunkId : UUID
  rows : List LessonInteraction
  deriving DecidableEq

/-- `claimant` (the thread of a task's last claim) and `batches` (all that
`saveInteractionsForChunk` has committed) are a record of what happened; no operation reads
them. -/
structure Store where
  lessons : Table Lesson Lesson.id
  tasks : TaskTable
  content : Content
  attempts : List LessonAttempt
  /-- The lessons with a row in `lesson_analyses`. -/
  analyses : List UUID
  transcripts : UUID → Option String
  segments : UUID → Option (List Segment)
  chunkTranscripts : UUID → Option String
  /-- `analysisLocks`, for each worker process. -/
  analysisLocks : UUID → UUID → Bool
  /-- The thread whose transaction has locked the lesson's row. -/
  lessonLock : UUID → Option Nat
  /-- A statement of the thread's transaction has failed. -/
  txAborted : Nat → Bool
  /-- The context of the thread is done. -/
  cancelled : Nat → Bool
  claimant : UUID → Option Nat
  batches : List Batch

/-- What goes from a generate request to the engine only. -/
structure GenerateOptions where
  interactionKinds : List Nat
  countPerChunk : Nat
  strategy : Nat
  difficulty : String
  focusPrompt : String
  deriving DecidableEq

/-- Statements and transactions of Postgres.  `lockLesson` begins the transaction of
`StartLessonTask`; `insertTask` ends it with the new row, `commit` and `rollback` without. -/
inductive Query
  | getLessonByID (id : UUID)
  | getOrgIDByLessonID (lessonId : UUID)
  | lockLesson (id : UUID)
  | commit (lessonId : UUID)
  | rollback (lessonId : UUID)
  | updateLessonVideo (id : UUID) (videoStorageKey : Option String) (durationSeconds : Option Nat)
  | replaceVideo (id : UUID) (videoStorageKey : String) (durationSeconds : Option Nat)
      (wipe : Bool)
  | listLessonTranscriptChunks (lessonId : UUID) (limit : Nat)
  | getLessonTranscriptChunk (id : UUID)
  | listLessonInteractions (lessonId : UUID) (limit : Nat)
  | deleteLessonInteractionsByLesson (lessonId : UUID)
  | deleteLessonTranscriptChunks (lessonId : UUID)
  | deleteLessonAttempts (lessonId : UUID)
  | deleteLessonAnalysis (lessonId : UUID)
  | saveChunks (lessonId : UUID) (limit : Nat) (chunks : List ChunkProposal)
  | saveInteractionsForChunk (lessonId chunkId : UUID) (items : List GeneratedItem) (force : Bool)
  | getTask (id : UUID)
  | getActiveTask (lessonId : UUID) (taskType : String) (chunkId : Option UUID)
  | countActiveTasksByUser (userId : UUID)
  | listLatestTaskPerLesson (lessonId : UUID)
  | insertTask (lessonId : UUID) (chunkId : Option UUID) (taskType : String)
      (inputPayload : Option Bytes) (createdBy : UUID)
  | deleteTasksForLesson (lessonId : UUID)
  | deleteTasksForLessonExcept (lessonId id : UUID)
  | claimNextInqueuedTask (workerId : UUID) (taskTypes : List String)
  | heartbeatTask (id : UUID) (workerId : Option UUID)
  | reapStaleProcessingBatch (limit : Nat) (staleBefore : Timestamptz)
  | requeueOrphanedInqueuedBatch (limit : Nat) (staleBefore : Timestamptz)
  | markSucceeded (id : UUID) (outputPayload : Option Bytes) (workerId : Option UUID)
  | markFailed (id : UUID) (errorMsg : Option String) (workerId : Option UUID)
  | cancelTask (id : UUID)
  | setTaskCheckpoint (id : UUID) (outputPayload : Option Bytes) (workerId : Option UUID)
  | updateTaskProgress (id : UUID) (step : String) (current total : Int) (message : String)
  deriving DecidableEq

abbrev Query.Result : Query → Type
  | .getLessonByID _ | .updateLessonVideo .. | .replaceVideo .. => Lesson
  | .getOrgIDByLessonID _ | .lockLesson _ | .commit _ | .rollback _ => Unit
  | .listLessonTranscriptChunks .. => ChunkList
  | .getLessonTranscriptChunk _ => LessonTranscriptChunk
  | .listLessonInteractions .. | .saveInteractionsForChunk .. => List LessonInteraction
  | .saveChunks .. => SavedChunks
  | .getTask _ | .getActiveTask .. | .insertTask .. | .claimNextInqueuedTask .. => Task
  | .countActiveTasksByUser _ | .heartbeatTask .. => Nat
  | .listLatestTaskPerLesson _ => List Task
  | _ => Unit

inductive Op
  | pg (q : Query)
  | loadTranscript (lessonId : UUID)
  | saveTranscript (lessonId : UUID) (text : String)
  | deleteTranscript (lessonId : UUID)
  | loadSegments (lessonId : UUID)
  | saveSegments (lessonId : UUID) (segs : List Segment)
  | deleteSegments (lessonId : UUID)
  | fetchChunkTranscript (chunkId : UUID)
  | saveChunkTranscript (chunkId : UUID) (text : String)
  | deleteChunkTranscript (chunkId : UUID)
  | tryAcquire (workerId lessonId : UUID)
  | release (workerId lessonId : UUID)
  | transcription (videoKey audioLang : String)
  | chunk (transcript : String) (segments : List Segment) (language : String)
  | generateForChunk (chunk : LessonTranscriptChunk) (chunkTranscript language : String)
      (options : GenerateOptions)
  | ctxErr
  | unixNow
  | statObject (key : String)
  deriving DecidableEq

abbrev Op.Resp : Op → Type
  | .pg q => Except DbError q.Result
  | .loadTranscript _ | .fetchChunkTranscript _ => String
  | .loadSegments _ => List Segment
  | .transcription .. => Except Fail (String × List Segment)
  | .chunk .. => Except Fail (List ChunkProposal)
  | .generateForChunk .. => Except Fail (List GeneratedItem)
  | .tryAcquire .. | .ctxErr | .statObject _ => Bool
  | .unixNow => Nat
  | .saveTranscript .. | .deleteTranscript _ | .saveSegments .. | .deleteSegments _
  | .saveChunkTranscript .. | .deleteChunkTranscript _ | .release .. => Unit

/-- What the environment decides in a step: whether the thread's context is done, whether the
statement or the access to FoundationDB fails, whether the transaction that holds the lesson's row
has lost its connection, the clock, the rows that others hold locked, the new ids, and what the
speech recognition, the model and the object store answer. -/
structure Env where
  cancel : Bool := false
  failure : Option DbError := none
  kvFails : Bool := false
  lockLost : Bool := false
  now : Timestamptz := 0
  locked : UUID → Bool := fun _ => false
  newId : Nat → UUID := fun _ => 0
  transcribed : Except Fail (String × List Segment) := .error (errorf "")
  proposals : Except Fail (List ChunkProposal) := .error (errorf "")
  items : Except Fail (List GeneratedItem) := .error (errorf "")
  unix : Nat := 0
  stat : Bool := false

/-- The statement of the queue that a query is, if it is one that changes rows. -/
def Query.stmt (env : Env) : Query → Option Stmt
  | .insertTask lessonId chunkId taskType inputPayload createdBy =>
      some (.insertTask ⟨env.newId 0, lessonId, chunkId, taskType, inputPayload, createdBy⟩ env.now)
  | .claimNextInqueuedTask workerId taskTypes =>
      some (.claimNextInqueuedTask workerId taskTypes env.now env.locked)
  | .heartbeatTask id workerId => some (.heartbeatTask id workerId env.now)
  | .reapStaleProcessingBatch limit staleBefore =>
      some (.reapStaleProcessingBatch limit staleBefore env.now env.locked)
  | .requeueOrphanedInqueuedBatch limit staleBefore =>
      some (.requeueOrphanedInqueuedBatch limit staleBefore env.now env.locked)
  | .markSucceeded id outputPayload workerId =>
      some (.markSucceeded id outputPayload workerId env.now)
  | .markFailed id errorMsg workerId => some (.markFailed id errorMsg workerId env.now)
  | .cancelTask id => some (.cancelTask id env.now)
  | .setTaskCheckpoint id outputPayload workerId =>
      some (.setTaskCheckpoint id outputPayload workerId env.now)
  | .updateTaskProgress id step current total message =>
      some (.updateTaskProgress id step current total message env.now)
  | _ => none

/-- `ListLatestTaskPerLesson` for one lesson: its latest row of each type. -/
def listLatestTaskPerLesson (lessonId : UUID) (t : TaskTable) : List Task :=
  t.rows.filter fun r => r.lessonId = lessonId && t.rows.all fun q =>
    q.lessonId ≠ lessonId || q.taskType ≠ r.taskType || decide (q.createdAt < r.createdAt) ||
      (q.createdAt = r.createdAt && q.id ≤ r.id)

def Lesson.setVideo (videoStorageKey : Option String) (durationSeconds : Option Nat) (l : Lesson) :
    Lesson :=
  { l with videoStorageKey := videoStorageKey, durationSeconds := durationSeconds }

@[simp] theorem Lesson.setVideo_id (videoStorageKey : Option String)
    (durationSeconds : Option Nat) (l : Lesson) :
    (l.setVideo videoStorageKey durationSeconds).id = l.id := rfl

/-- `UpdateLessonVideo`, the statement. -/
def updateLessonVideoRow (id : UUID) (videoStorageKey : Option String)
    (durationSeconds : Option Nat) (lessons : Table Lesson Lesson.id) : Table Lesson Lesson.id :=
  lessons.update (fun l => l.id = id) (Lesson.setVideo videoStorageKey durationSeconds)
    (Lesson.setVideo_id videoStorageKey durationSeconds)

namespace Store

/-- `DeleteLessonAttempts`. -/
def deleteLessonAttempts (lessonId : UUID) (s : Store) : Store :=
  { s with attempts := s.attempts.filter fun a => a.lessonId ≠ lessonId }

/-- `DeleteLessonAnalysis`. -/
def deleteLessonAnalysis (lessonId : UUID) (s : Store) : Store :=
  { s with analyses := s.analyses.filter fun id => id ≠ lessonId }

/-- What the transaction of `UpdateLessonVideo` deletes. -/
def wipe (lessonId : UUID) (s : Store) : Store :=
  { (s.deleteLessonAttempts lessonId).deleteLessonAnalysis lessonId with
    content := deleteLessonTranscriptChunks lessonId
      (deleteLessonInteractionsByLesson lessonId s.content)
    tasks := TaskQueue.deleteTasksForLesson lessonId s.tasks }

/-- The store in which a step of thread `i` runs: its context may have been cancelled by then. -/
def touch (i : Nat) (env : Env) (s : Store) : Store :=
  { s with cancelled := Function.update s.cancelled i (s.cancelled i || env.cancel) }

theorem touch_cancelled_self (i : Nat) (env : Env) (s : Store) :
    (s.touch i env).cancelled i = (s.cancelled i || env.cancel) := Function.update_self ..

/-- After a statement of thread `i` that has failed. -/
def failed (i : Nat) (inTransaction : Bool) (s : Store) : Store :=
  { s with txAborted := Function.update s.txAborted i (s.txAborted i || inTransaction) }

/-- The transaction of thread `i` on the lesson's row is over. -/
def unlock (lessonId : UUID) (s : Store) : Store :=
  { s with lessonLock := Function.update s.lessonLock lessonId none }

/-- The row of the lesson is free for thread `i`. -/
def free (s : Store) (i : Nat) (env : Env) (lessonId : UUID) : Bool :=
  (s.lessonLock lessonId).all (· = i) || env.lockLost

end Store

/-- The reads between `lockLesson` and the end of its transaction. -/
def Query.inTransaction : Query → Bool
  | .getActiveTask .. | .countActiveTasksByUser _ => true
  | _ => false

/-- `current transaction is aborted`. -/
def inFailedSqlTransaction : DbError := .pg "25P02"

/-- The effect of a statement that does not fail, by thread `i`; one that waits for the lesson's
row is not enabled. -/
def Query.exec (i : Nat) (env : Env) (q : Query) (s : Store) :
    Option (Except DbError q.Result × Store) :=
  match q with
  | .getLessonByID id => some (one (s.lessons.find id), s)
  | .getOrgIDByLessonID lessonId =>
      some (if (s.lessons.find lessonId).isSome then .ok () else .error .noRows, s)
  | .lockLesson id =>
      if s.free i env id then
        if (s.lessons.find id).isSome then
          some (.ok (), { s with
            lessonLock := Function.update s.lessonLock id (some i)
            txAborted := Function.update s.txAborted i false })
        else some (.error .noRows, s)
      else none
  | .commit lessonId =>
      if s.lessonLock lessonId = some i then
        if s.txAborted i then
          some (.error (.other "commit unexpectedly resulted in rollback"), s.unlock lessonId)
        else some (.ok (), s.unlock lessonId)
      else some (.error (.other "conn closed"), s)
  | .rollback lessonId =>
      if s.lessonLock lessonId = some i then some (.ok (), s.unlock lessonId)
      else some (.ok (), s)
  | .updateLessonVideo id key duration =>
      if s.free i env id then
        some (one ((s.lessons.find id).map (Lesson.setVideo key duration)),
          { s with lessons := updateLessonVideoRow id key duration s.lessons })
      else none
  | .replaceVideo id key duration wipe =>
      if s.free i env id then
        match s.lessons.find id with
        | none => some (.error .noRows, s)
        | some l =>
            let updated :=
              { s with lessons := updateLessonVideoRow id (some key) duration s.lessons }
            some (.ok (l.setVideo (some key) duration),
              if wipe then updated.wipe id else updated)
      else none
  | .listLessonTranscriptChunks lessonId limit =>
      some (.ok (Lessons.listLessonTranscriptChunks lessonId limit s.content), s)
  | .getLessonTranscriptChunk id => some (one (s.content.parents.find id), s)
  | .listLessonInteractions lessonId limit =>
      some (.ok (Lessons.listLessonInteractions lessonId limit s.content), s)
  | .deleteLessonInteractionsByLesson lessonId =>
      some (.ok (),
        { s with content := Lessons.deleteLessonInteractionsByLesson lessonId s.content })
  | .deleteLessonTranscriptChunks lessonId =>
      some (.ok (), { s with content := Lessons.deleteLessonTranscriptChunks lessonId s.content })
  | .deleteLessonAttempts lessonId => some (.ok (), s.deleteLessonAttempts lessonId)
  | .deleteLessonAnalysis lessonId => some (.ok (), s.deleteLessonAnalysis lessonId)
  | .saveChunks lessonId limit chunks =>
      match Lessons.saveChunks (s.lessons.find lessonId).isSome lessonId limit chunks env.newId
        s.content with
      | .error e => some (.error e, s)
      | .ok (saved, content) => some (.ok saved, { s with content := content })
  | .saveInteractionsForChunk lessonId chunkId items force =>
      match Lessons.saveInteractionsForChunk lessonId chunkId items force env.newId s.content with
      | .error e => some (.error e, s)
      | .ok (saved, content) => some (.ok saved,
          { s with content := content, batches := s.batches ++ [⟨chunkId, saved⟩] })
  | .getTask id => some (one (s.tasks.find id), s)
  | .getActiveTask lessonId taskType chunkId =>
      if s.txAborted i then some (.error inFailedSqlTransaction, s)
      else some (one (TaskQueue.getActiveTask lessonId taskType chunkId s.tasks), s)
  | .countActiveTasksByUser userId =>
      if s.txAborted i then some (.error inFailedSqlTransaction, s)
      else some (.ok (TaskQueue.countActiveTasksByUser userId s.tasks), s)
  | .listLatestTaskPerLesson lessonId =>
      some (.ok (Lessons.listLatestTaskPerLesson lessonId s.tasks), s)
  | .insertTask lessonId chunkId taskType inputPayload createdBy =>
      if s.lessonLock lessonId = some i then
        if s.txAborted i then some (.error inFailedSqlTransaction, s)
        else
          let p : InsertTaskParams :=
            ⟨env.newId 0, lessonId, chunkId, taskType, inputPayload, createdBy⟩
          match TaskQueue.insertTask p env.now s.tasks with
          | none => some (.error (.pg "23505"), s.unlock lessonId)
          | some tasks => some (.ok (p.row (TaskQueue.maxQueueSeq s.tasks + 1) env.now),
              { s.unlock lessonId with tasks := tasks })
      else some (.error (.other "conn closed"), s)
  | .deleteTasksForLesson lessonId =>
      some (.ok (), { s with tasks := TaskQueue.deleteTasksForLesson lessonId s.tasks })
  | .deleteTasksForLessonExcept lessonId id =>
      some (.ok (), { s with tasks := TaskQueue.deleteTasksForLessonExcept lessonId id s.tasks })
  | .claimNextInqueuedTask workerId taskTypes =>
      match TaskQueue.claimNextInqueuedTask workerId taskTypes env.now env.locked s.tasks with
      | (_, none) => some (.error .noRows, s)
      | (tasks, some t) => some (.ok t,
          { s with tasks := tasks, claimant := Function.update s.claimant t.id (some i) })
  | .heartbeatTask id workerId =>
      let (tasks, n) := TaskQueue.heartbeatTask id workerId env.now s.tasks
      some (.ok n, { s with tasks := tasks })
  | .reapStaleProcessingBatch limit staleBefore =>
      some (.ok (), { s with
        tasks := TaskQueue.reapStaleProcessingBatch limit staleBefore env.now env.locked s.tasks })
  | .requeueOrphanedInqueuedBatch limit staleBefore =>
      some (.ok (), { s with
        tasks := TaskQueue.requeueOrphanedInqueuedBatch limit staleBefore env.now env.locked
          s.tasks })
  | .markSucceeded id outputPayload workerId =>
      some (.ok (), { s with
        tasks := TaskQueue.markSucceeded id outputPayload workerId env.now s.tasks })
  | .markFailed id errorMsg workerId =>
      some (.ok (), { s with
        tasks := TaskQueue.markFailed id errorMsg workerId env.now s.tasks })
  | .cancelTask id =>
      some (.ok (), { s with tasks := TaskQueue.cancelTask id env.now s.tasks })
  | .setTaskCheckpoint id outputPayload workerId =>
      some (.ok (), { s with
        tasks := TaskQueue.setTaskCheckpoint id outputPayload workerId env.now s.tasks })
  | .updateTaskProgress id step current total message =>
      some (.ok (), { s with
        tasks := TaskQueue.updateTaskProgress id step current total message env.now s.tasks })

/-- A record of FoundationDB, when it can be read. -/
def readKv {α : Type} (env : Env) (record : Option α) : Option α :=
  if env.kvFails then none else record

/-- A write to FoundationDB, when it does not fail. -/
def writeKv {α : Type} (env : Env) (records : UUID → Option α) (id : UUID) (record : Option α) :
    UUID → Option α :=
  if env.kvFails then records else Function.update records id record

/-- A statement of a thread whose context is done fails. -/
def exec (i : Nat) (env : Env) (o : Op) (s₀ : Store) : Option (o.Resp × Store) :=
  let s := s₀.touch i env
  match o with
  | .pg q =>
      if s.cancelled i then some (.error contextCanceled, s.failed i q.inTransaction)
      else
        match env.failure with
        | some e => some (.error e, s.failed i q.inTransaction)
        | none => q.exec i env s
  | .loadTranscript lessonId =>
      some (trimSpace ((readKv env (s.transcripts lessonId)).getD ""), s)
  | .saveTranscript lessonId text =>
      some ((), { s with transcripts := writeKv env s.transcripts lessonId (some text) })
  | .deleteTranscript lessonId =>
      some ((), { s with transcripts := writeKv env s.transcripts lessonId none })
  | .loadSegments lessonId => some ((readKv env (s.segments lessonId)).getD [], s)
  | .saveSegments lessonId segs =>
      some ((), { s with segments := writeKv env s.segments lessonId (some segs) })
  | .deleteSegments lessonId =>
      some ((), { s with segments := writeKv env s.segments lessonId none })
  | .fetchChunkTranscript chunkId =>
      some (trimSpace ((readKv env (s.chunkTranscripts chunkId)).getD ""), s)
  | .saveChunkTranscript chunkId text =>
      some ((), { s with chunkTranscripts := writeKv env s.chunkTranscripts chunkId (some text) })
  | .deleteChunkTranscript chunkId =>
      some ((), { s with chunkTranscripts := writeKv env s.chunkTranscripts chunkId none })
  | .tryAcquire workerId lessonId =>
      if s.analysisLocks workerId lessonId then some (false, s)
      else some (true, { s with
        analysisLocks := Function.update s.analysisLocks workerId
          (Function.update (s.analysisLocks workerId) lessonId true) })
  | .release workerId lessonId =>
      some ((), { s with
        analysisLocks := Function.update s.analysisLocks workerId
          (Function.update (s.analysisLocks workerId) lessonId false) })
  | .transcription .. => some (env.transcribed, s)
  | .chunk .. => some (env.proposals, s)
  | .generateForChunk .. => some (env.items, s)
  | .ctxErr => some (s.cancelled i, s)
  | .unixNow => some (env.unix, s)
  | .statObject _ => some (env.stat, s)

/-- The lesson whose task rows the operation deletes, all of them. -/
def Op.wipes : Op → Option UUID
  | .pg (.replaceVideo id _ _ true) => some id
  | .pg (.deleteTasksForLesson lessonId) => some lessonId
  | _ => none

/-- A query fails, or has its effect. -/
theorem exec_pg {i : Nat} {env : Env} {q : Query} {s s' : Store} {r : Except DbError q.Result}
    (h : exec i env (.pg q) s = some (r, s')) :
    (∃ e, r = .error e ∧ s' = (s.touch i env).failed i q.inTransaction) ∨
      (s.touch i env).cancelled i = false ∧ q.exec i env (s.touch i env) = some (r, s') := by
  unfold exec at h
  dsimp only at h
  split at h
  · cases h
    exact .inl ⟨_, rfl, rfl⟩
  · next hLive =>
    split at h
    · cases h
      exact .inl ⟨_, rfl, rfl⟩
    · exact .inr ⟨by simpa using hLive, h⟩

/-- What a query does to the tasks. -/
theorem Query.exec_tasks {i : Nat} {env : Env} {q : Query} {s s' : Store}
    {r : Except DbError q.Result} (h : q.exec i env s = some (r, s')) :
    s'.tasks = s.tasks ∨
      (∃ stmt, q.stmt env = some stmt ∧ s'.tasks = TaskQueue.exec s.tasks stmt) ∨
      (∃ lessonId, (Op.pg q).wipes = some lessonId ∧
        s'.tasks = TaskQueue.deleteTasksForLesson lessonId s.tasks) ∨
      ∃ lessonId id, q = .deleteTasksForLessonExcept lessonId id ∧
        s'.tasks = TaskQueue.deleteTasksForLessonExcept lessonId id s.tasks := by
  cases q with
  | replaceVideo id key duration wipe =>
    unfold Query.exec at h
    dsimp only at h
    split at h
    · split at h
      · cases h
        exact .inl rfl
      · cases h
        cases wipe
        · exact .inl rfl
        · exact .inr (.inr (.inl ⟨id, rfl, rfl⟩))
    · cases h
  | insertTask lessonId chunkId taskType inputPayload createdBy =>
    unfold Query.exec at h
    dsimp only at h
    split at h
    · split at h
      · cases h
        exact .inl rfl
      · split at h
        · next hNone =>
          cases h
          exact .inl rfl
        · next tasks hInsert =>
          cases h
          exact .inr (.inl ⟨_, rfl, by simp [TaskQueue.exec, hInsert]⟩)
    · cases h
      exact .inl rfl
  | claimNextInqueuedTask workerId taskTypes =>
    unfold Query.exec at h
    dsimp only at h
    split at h
    · cases h
      exact .inl rfl
    · next tasks t hClaim =>
      cases h
      exact .inr (.inl ⟨_, rfl, by simp [TaskQueue.exec, hClaim]⟩)
  | deleteTasksForLesson lessonId =>
    cases h
    exact .inr (.inr (.inl ⟨lessonId, rfl, rfl⟩))
  | deleteTasksForLessonExcept lessonId id =>
    cases h
    exact .inr (.inr (.inr ⟨lessonId, id, rfl, rfl⟩))
  | heartbeatTask | reapStaleProcessingBatch | requeueOrphanedInqueuedBatch | markSucceeded
  | markFailed | cancelTask | setTaskCheckpoint | updateTaskProgress =>
    cases h
    exact .inr (.inl ⟨_, rfl, rfl⟩)
  | lockLesson | updateLessonVideo | commit | rollback | saveChunks | saveInteractionsForChunk
  | getActiveTask | countActiveTasksByUser =>
    unfold Query.exec at h
    dsimp only at h
    repeat' split at h
    all_goals cases h <;> exact .inl rfl
  | _ =>
    cases h
    exact .inl rfl

theorem exec_tasks {i : Nat} {env : Env} {o : Op} {s s' : Store} {r : o.Resp}
    (h : exec i env o s = some (r, s')) :
    s'.tasks = s.tasks ∨
      (∃ q stmt, o = .pg q ∧ q.stmt env = some stmt ∧ s'.tasks = TaskQueue.exec s.tasks stmt) ∨
      (∃ lessonId, o.wipes = some lessonId ∧
        s'.tasks = TaskQueue.deleteTasksForLesson lessonId s.tasks) ∨
      ∃ lessonId id, o = .pg (.deleteTasksForLessonExcept lessonId id) ∧
        s'.tasks = TaskQueue.deleteTasksForLessonExcept lessonId id s.tasks := by
  cases o with
  | pg q =>
    obtain ⟨e, rfl, rfl⟩ | ⟨_, hExec⟩ := exec_pg h
    · exact .inl rfl
    · obtain hSame | ⟨stmt, hStmt, hTasks⟩ | hWipes | ⟨lessonId, id, rfl, hTasks⟩ :=
        Query.exec_tasks hExec
      · exact .inl hSame
      · exact .inr (.inl ⟨q, stmt, rfl, hStmt, hTasks⟩)
      · exact .inr (.inr (.inl hWipes))
      · exact .inr (.inr (.inr ⟨lessonId, id, rfl, hTasks⟩))
  | tryAcquire workerId lessonId =>
    unfold exec at h
    dsimp only at h
    split at h <;> cases h <;> exact .inl rfl
  | _ =>
    cases h
    exact .inl rfl

end Richter.Lessons
