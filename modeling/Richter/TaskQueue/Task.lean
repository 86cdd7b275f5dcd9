import Mathlib.Data.List.Sort
import Richter.Lib.Table
import Richter.Svc.Errors

/-! The `tasks` table and the statements of `sql/queries/tasks.sql` on it.  Every statement is one
transaction; the clock (`now`), the rows that other transactions hold locked (`locked`, for
`SKIP LOCKED`) and the parameters are arguments. -/

namespace Richter.TaskQueue

open Lib

abbrev Timestamptz := Int
abbrev Bytes := List UInt8

/-- The enumeration `task_status`. -/
inductive TaskStatus
  | inqueued
  | processing
  | cancelled
  | failed
  | succeeded
  deriving DecidableEq, Repr

/-- Statuses that a task keeps. -/
def TaskStatus.terminal : TaskStatus → Bool
  | .cancelled | .failed | .succeeded => true
  | .inqueued | .processing => false

/-- `status IN ('inqueued', 'processing')`. -/
def TaskStatus.active (s : TaskStatus) : Bool := s = .inqueued || s = .processing

@[simp] theorem TaskStatus.active_eq_not_terminal (s : TaskStatus) : s.active = !s.terminal := by
  cases s <;> rfl

/-- A row of `tasks`; nullable columns are options. -/
structure Task where
  id : UUID
  lessonId : UUID
  chunkId : Option UUID
  taskType : String
  status : TaskStatus
  workerId : Option UUID
  heartbeat : Option Timestamptz
  errorMsg : Option String
  inputPayload : Option Bytes
  outputPayload : Option Bytes
  queueSeq : Int
  createdAt : Timestamptz
  updatedAt : Timestamptz
  startedAt : Option Timestamptz
  finishedAt : Option Timestamptz
  createdBy : UUID
  progressStep : String
  progressCurrent : Int
  progressTotal : Int
  message : String
  deriving DecidableEq, Repr

abbrev TaskTable := Table Task Task.id

/-- `COALESCE(MAX(queue_seq), 0)` over the inqueued rows. -/
def maxQueueSeq (t : TaskTable) : Int :=
  (((t.rows.filter fun r => r.status = .inqueued).map Task.queueSeq).max?).getD 0

/-- `COALESCE(MIN(queue_seq), 0)` over the inqueued rows. -/
def minQueueSeq (t : TaskTable) : Int :=
  (((t.rows.filter fun r => r.status = .inqueued).map Task.queueSeq).min?).getD 0

/-! What the `SET` clause of each statement makes of a row. -/

namespace Task

def setClaimed (workerId : UUID) (now : Timestamptz) (r : Task) : Task :=
  { r with
    status := .processing
    workerId := some workerId
    heartbeat := some now
    startedAt := some (r.startedAt.getD now)
    updatedAt := now }

def setReaped (queueSeq : Int) (now : Timestamptz) (r : Task) : Task :=
  { r with
    status := .inqueued
    workerId := none
    heartbeat := none
    queueSeq := queueSeq
    updatedAt := now }

def setRequeued (queueSeq : Int) (now : Timestamptz) (r : Task) : Task :=
  { r with queueSeq := queueSeq, updatedAt := now }

def setHeartbeat (now : Timestamptz) (r : Task) : Task :=
  { r with heartbeat := some now, updatedAt := now }

def setSucceeded (outputPayload : Option Bytes) (now : Timestamptz) (r : Task) : Task :=
  { r with
    status := .succeeded
    outputPayload := outputPayload
    finishedAt := some now
    updatedAt := now
    heartbeat := none
    workerId := none
    message := "" }

def setFailed (errorMsg : Option String) (now : Timestamptz) (r : Task) : Task :=
  { r with
    status := .failed
    errorMsg := errorMsg
    finishedAt := some now
    updatedAt := now
    heartbeat := none
    workerId := none
    message := "" }

def setCancelled (now : Timestamptz) (r : Task) : Task :=
  { r with
    status := .cancelled
    finishedAt := some now
    updatedAt := now
    workerId := none
    heartbeat := none
    message := "" }

def setProgress (step : String) (current total : Int) (message : String) (now : Timestamptz)
    (r : Task) : Task :=
  { r with
    progressStep := step
    progressCurrent := current
    progressTotal := total
    message := message
    updatedAt := now }

def setCheckpoint (outputPayload : Option Bytes) (now : Timestamptz) (r : Task) : Task :=
  { r with outputPayload := outputPayload, updatedAt := now }

section

variable (workerId : UUID) (queueSeq : Int) (outputPayload : Option Bytes)
  (errorMsg : Option String) (step message : String) (current total : Int) (now : Timestamptz)
  (r : Task)

@[simp] theorem setClaimed_id : (r.setClaimed workerId now).id = r.id := rfl
@[simp] theorem setReaped_id : (r.setReaped queueSeq now).id = r.id := rfl
@[simp] theorem setRequeued_id : (r.setRequeued queueSeq now).id = r.id := rfl
@[simp] theorem setHeartbeat_id : (r.setHeartbeat now).id = r.id := rfl
@[simp] theorem setSucceeded_id : (r.setSucceeded outputPayload now).id = r.id := rfl
@[simp] theorem setFailed_id : (r.setFailed errorMsg now).id = r.id := rfl
@[simp] theorem setCancelled_id : (r.setCancelled now).id = r.id := rfl
@[simp] theorem setProgress_id :
    (r.setProgress step current total message now).id = r.id := rfl
@[simp] theorem setCheckpoint_id : (r.setCheckpoint outputPayload now).id = r.id := rfl

end

end Task

/-- The parameters of `InsertTask`. -/
structure InsertTaskParams where
  id : UUID
  lessonId : UUID
  chunkId : Option UUID
  taskType : String
  inputPayload : Option Bytes
  createdBy : UUID
  deriving DecidableEq, Repr

/-- The row that `InsertTask` makes, with the defaults of the table. -/
def InsertTaskParams.row (p : InsertTaskParams) (queueSeq : Int) (now : Timestamptz) : Task where
  id := p.id
  lessonId := p.lessonId
  chunkId := p.chunkId
  taskType := p.taskType
  status := .inqueued
  workerId := none
  heartbeat := none
  errorMsg := none
  inputPayload := p.inputPayload
  outputPayload := none
  queueSeq := queueSeq
  createdAt := now
  updatedAt := now
  startedAt := none
  finishedAt := none
  createdBy := p.createdBy
  progressStep := ""
  progressCurrent := 0
  progressTotal := 0
  message := ""

/-- `InsertTask`; it fails when the id is taken. -/
def insertTask (p : InsertTaskParams) (now : Timestamptz) (t : TaskTable) : Option TaskTable :=
  t.insert (p.row (maxQueueSeq t + 1) now)

/-- The row that `ClaimNextInqueuedTask` selects. -/
def claimCandidate (taskTypes : List String) (locked : UUID → Bool) (t : TaskTable) :
    Option Task :=
  ((t.rows.filter fun r => r.status = .inqueued && taskTypes.contains r.taskType &&
    !locked r.id).insertionSort fun a b => a.queueSeq ≤ b.queueSeq).head?

/-- `ClaimNextInqueuedTask`: the table after it and the row it returns, if any.  A worker's id is
never `NULL`. -/
def claimNextInqueuedTask (workerId : UUID) (taskTypes : List String) (now : Timestamptz)
    (locked : UUID → Bool) (t : TaskTable) : TaskTable × Option Task :=
  match claimCandidate taskTypes locked t with
  | none => (t, none)
  | some c => (t.update (fun r => r.id = c.id) (Task.setClaimed workerId now)
      (Task.setClaimed_id workerId now),
      some (c.setClaimed workerId now))

/-- `WHERE id = $1 AND worker_id = $2 AND status = 'processing'`. -/
def Task.ownedBy (id : UUID) (workerId : Option UUID) (r : Task) : Bool :=
  r.id = id && sqlEq r.workerId workerId && r.status = .processing

/-- `HeartbeatTask`: the table after it and the number of rows affected. -/
def heartbeatTask (id : UUID) (workerId : Option UUID) (now : Timestamptz) (t : TaskTable) :
    TaskTable × Nat :=
  (t.update (Task.ownedBy id workerId) (Task.setHeartbeat now) (Task.setHeartbeat_id now),
    t.rows.countP (Task.ownedBy id workerId))

/-- `MarkSucceeded`. -/
def markSucceeded (id : UUID) (outputPayload : Option Bytes) (workerId : Option UUID)
    (now : Timestamptz) (t : TaskTable) : TaskTable :=
  t.update (Task.ownedBy id workerId) (Task.setSucceeded outputPayload now)
    (Task.setSucceeded_id outputPayload now)

/-- `MarkFailed`. -/
def markFailed (id : UUID) (errorMsg : Option String) (workerId : Option UUID)
    (now : Timestamptz) (t : TaskTable) : TaskTable :=
  t.update (Task.ownedBy id workerId) (Task.setFailed errorMsg now)
    (Task.setFailed_id errorMsg now)

/-- `SetTaskCheckpoint`. -/
def setTaskCheckpoint (id : UUID) (outputPayload : Option Bytes) (workerId : Option UUID)
    (now : Timestamptz) (t : TaskTable) : TaskTable :=
  t.update (Task.ownedBy id workerId) (Task.setCheckpoint outputPayload now)
    (Task.setCheckpoint_id outputPayload now)

/-- `CancelTask`. -/
def cancelTask (id : UUID) (now : Timestamptz) (t : TaskTable) : TaskTable :=
  t.update (fun r => r.id = id && r.status.active) (Task.setCancelled now)
    (Task.setCancelled_id now)

/-- `UpdateTaskProgress`. -/
def updateTaskProgress (id : UUID) (step : String) (current total : Int) (message : String)
    (now : Timestamptz) (t : TaskTable) : TaskTable :=
  t.update (fun r => r.id = id) (Task.setProgress step current total message now)
    (Task.setProgress_id step message current total now)

/-- `ROW_NUMBER()` of a row in the order of the selected rows. -/
def rowNumber (base : List Task) (id : UUID) : Int := base.findIdx (fun r => r.id = id) + 1

/-- The rows that `ReapStaleProcessingBatch` selects. -/
def staleProcessing (limit : Nat) (staleBefore : Timestamptz) (locked : UUID → Bool)
    (t : TaskTable) : List Task :=
  ((t.rows.filter fun r => r.status = .processing && sqlLt r.heartbeat staleBefore &&
    !locked r.id).insertionSort fun a b => a.heartbeat.getD 0 ≤ b.heartbeat.getD 0).take limit

/-- `ReapStaleProcessingBatch`. -/
def reapStaleProcessingBatch (limit : Nat) (staleBefore now : Timestamptz)
    (locked : UUID → Bool) (t : TaskTable) : TaskTable :=
  let base := staleProcessing limit staleBefore locked t
  t.update (fun r => base.any fun b => r.id = b.id)
    (fun r => r.setReaped (maxQueueSeq t + rowNumber base r.id) now)
    fun r => Task.setReaped_id _ now r

/-- The rows that `RequeueOrphanedInqueuedBatch` selects. -/
def orphanedInqueued (limit : Nat) (staleBefore : Timestamptz) (locked : UUID → Bool)
    (t : TaskTable) : List Task :=
  ((t.rows.filter fun r => r.status = .inqueued && decide (r.updatedAt < staleBefore) &&
    !locked r.id).insertionSort fun a b => a.updatedAt ≤ b.updatedAt).take limit

/-- `RequeueOrphanedInqueuedBatch`. -/
def requeueOrphanedInqueuedBatch (limit : Nat) (staleBefore now : Timestamptz)
    (locked : UUID → Bool) (t : TaskTable) : TaskTable :=
  let base := orphanedInqueued limit staleBefore locked t
  t.update (fun r => base.any fun b => r.id = b.id)
    (fun r => r.setRequeued (minQueueSeq t - rowNumber base r.id) now)
    fun r => Task.setRequeued_id _ now r

/-- `DeleteTasksForLesson`. -/
def deleteTasksForLesson (lessonId : UUID) (t : TaskTable) : TaskTable :=
  t.delete fun r => r.lessonId = lessonId

/-- `DeleteTasksForLessonExcept`. -/
def deleteTasksForLessonExcept (lessonId id : UUID) (t : TaskTable) : TaskTable :=
  t.delete fun r => r.lessonId = lessonId && r.id ≠ id

/-- `GetActiveTask`. -/
def getActiveTask (lessonId : UUID) (taskType : String) (chunkId : Option UUID)
    (t : TaskTable) : Option Task :=
  t.rows.find? fun r => r.lessonId = lessonId && r.taskType = taskType &&
    ((r.chunkId.isNone && chunkId.isNone) || sqlEq r.chunkId chunkId) && r.status.active

/-- `CountActiveTasksByUser`. -/
def countActiveTasksByUser (userId : UUID) (t : TaskTable) : Nat :=
  t.rows.countP fun r => r.createdBy = userId && r.status.active

end Richter.TaskQueue
