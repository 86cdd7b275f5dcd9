import Richter.Lessons.Executors

/-! The requests that start and cancel the tasks of a lesson (`internal/svc/ai/lesson_tasks.go`),
replace its video (`internal/svc/lessons/lesson_video.go`) or reset it
(`internal/svc/ai/reset.go`), and the system in which they run beside the workers and the
scanner. -/

namespace Richter.Lessons

open Lib
open TaskQueue (Bytes Task TaskStatus Timestamptz)

abbrev Handler := ExceptT Error (Prog Op Op.Resp)

namespace Handler

def perform (o : Op) : Handler o.Resp := ExceptT.lift (Prog.perform o)

def query (q : Query) : Handler (Except DbError q.Result) := perform (.pg q)

def ignore (o : Op) : Handler Unit := do
  let _ ← perform o
  return

def ignoreAll : List Op → Handler Unit
  | [] => return
  | o :: os => do
    ignore o
    ignoreAll os

/-- A query whose error goes through `ConnectDBError`. -/
def orConnectDBError (q : Query) : Handler q.Result := do
  match ← query q with
  | .ok a => return a
  | .error e => throw (connectDBError e)

def require {α : Type} : Except Error α → Handler α
  | .ok a => pure a
  | .error e => throw e

end Handler

open Handler (orConnectDBError require)

inductive LessonTaskKind
  | unspecified
  | extractTranscript
  | chunkTranscript
  | generateInteractions
  | runPipeline
  deriving DecidableEq, Repr

inductive LessonTaskStatus
  | queued
  | running
  | succeeded
  | failed
  | canceled
  deriving DecidableEq, Repr

/-- A task as it is returned to the client. -/
structure LessonTask where
  id : UUID
  lessonId : UUID
  chunkId : Option UUID
  kind : LessonTaskKind
  status : LessonTaskStatus
  progressStep : String
  progressCurrent : Int
  progressTotal : Int
  message : String
  errorMsg : String
  createdAt : Timestamptz
  updatedAt : Timestamptz
  startedAt : Option Timestamptz
  finishedAt : Option Timestamptz
  lastHeartbeat : Option Timestamptz
  deriving DecidableEq, Repr

/-- The `GenerateInteractionsRequest` within a `StartLessonTaskRequest`. -/
structure GenerateRequest where
  lessonId : Option UUID
  chunkId : Option UUID
  forceRegenerate : Bool
  options : GenerateOptions
  deriving DecidableEq

structure StartLessonTaskRequest where
  lessonId : UUID
  kind : LessonTaskKind
  generateInteractions : Option GenerateRequest
  deriving DecidableEq

def taskTypeToProtoKind (taskType : String) : LessonTaskKind :=
  match taskType with
  | "transcribe" => .extractTranscript
  | "chunk" => .chunkTranscript
  | "quiz_gen" => .generateInteractions
  | "pipeline_run" => .runPipeline
  | _ => .unspecified

def taskStatusToProtoStatus : TaskStatus → LessonTaskStatus
  | .inqueued => .queued
  | .processing => .running
  | .succeeded => .succeeded
  | .failed => .failed
  | .cancelled => .canceled

def deriveTaskMessage : TaskStatus → String
  | .inqueued => "Đang chờ..."
  | .processing => "Đang xử lý..."
  | .succeeded => "Hoàn thành"
  | .failed => "Thất bại"
  | .cancelled => "Đã hủy."

def lessonTaskToProto (t : Task) : LessonTask where
  id := t.id
  lessonId := t.lessonId
  chunkId := t.chunkId
  kind := taskTypeToProtoKind t.taskType
  status := taskStatusToProtoStatus t.status
  progressStep := t.progressStep
  progressCurrent := t.progressCurrent
  progressTotal := t.progressTotal
  message := if t.status.terminal || t.message = "" then deriveTaskMessage t.status else t.message
  errorMsg := t.errorMsg.getD ""
  createdAt := t.createdAt
  updatedAt := t.updatedAt
  startedAt := t.startedAt
  finishedAt := t.finishedAt
  lastHeartbeat := t.heartbeat

def unsupportedTaskKind : Error := .connect .invalidArgument "unsupported task kind"

def taskTypeFromKind : LessonTaskKind → Except Error String
  | .extractTranscript => .ok "transcribe"
  | .chunkTranscript => .ok "chunk"
  | .generateInteractions => .ok "quiz_gen"
  | .runPipeline => .ok "pipeline_run"
  | .unspecified => .error unsupportedTaskKind

/-- The input of the task that a request starts; what only goes to the engine is taken over. -/
def lessonTaskInputForKind (s : AiSvc) (req : StartLessonTaskRequest) : Except Error Bytes :=
  match req.kind with
  | .extractTranscript => .ok (s.proto.marshalInput "transcribe" { lessonId := some req.lessonId })
  | .chunkTranscript => .ok (s.proto.marshalInput "chunk" { lessonId := some req.lessonId })
  | .generateInteractions =>
    let genReq := req.generateInteractions.getD ⟨none, none, false, ⟨[], 0, 0, "", ""⟩⟩
    if genReq.lessonId.all (· = req.lessonId) then
      .ok (s.proto.marshalInput "quiz_gen"
        ⟨some req.lessonId, genReq.chunkId, genReq.forceRegenerate, genReq.options⟩)
    else .error (.connect .invalidArgument "generate_interactions.lesson_id must match lesson_id")
  | .runPipeline =>
    match req.generateInteractions with
    | none => .ok (s.proto.marshalInput "pipeline_run" { lessonId := some req.lessonId })
    | some genReq => .ok (s.proto.marshalInput "pipeline_run"
        ⟨some req.lessonId, none, genReq.forceRegenerate, genReq.options⟩)
  | .unspecified => .error unsupportedTaskKind

/-- The check of a chunk that the request names. -/
def requestedChunk (req : StartLessonTaskRequest) : Handler (Option UUID) := do
  match req.kind, req.generateInteractions.bind (·.chunkId) with
  | .generateInteractions, some chunkID =>
    let chunk ← orConnectDBError (.getLessonTranscriptChunk chunkID)
    if chunk.lessonId ≠ req.lessonId then
      throw (.connect .invalidArgument "chunk_id does not belong to lesson_id")
    else return some chunkID
  | _, _ => return none

/-- `authorizeAndLoadLesson`; `caller` is what `RequireOrgRole` answers for a teacher's role. -/
def authorizeAndLoadLesson (caller : Except Error UUID) (lessonID : UUID) : Handler String := do
  orConnectDBError (.getOrgIDByLessonID lessonID)
  let _ ← require caller
  let lesson ← orConnectDBError (.getLessonByID lessonID)
  match lesson.videoStorageKey with
  | none | some "" => throw (.connect .failedPrecondition "lesson has no video uploaded")
  | some key =>
    if ← Handler.perform (.statObject key) then return key
    else throw (.connect .notFound "video file not found in storage")

def preflightLessonTask (caller : Except Error UUID) (kind : LessonTaskKind) (lessonID : UUID) :
    Handler Unit := do
  match kind with
  | .extractTranscript | .runPipeline =>
    let _ ← authorizeAndLoadLesson caller lessonID
  | .chunkTranscript =>
    match ← Handler.query (.listLatestTaskPerLesson lessonID) with
    | .error e => throw (.connect .internal ("preflight chunk: " ++ e.text))
    | .ok tasks =>
      if tasks.any fun t => t.taskType = "transcribe" && t.status = .succeeded then return
      else throw (.connect .failedPrecondition
        "no transcript found — run Step 2 (extract transcript) first")
  | .generateInteractions =>
    let chunks ← orConnectDBError (.listLessonTranscriptChunks lessonID 1)
    if chunks.val = [] then
      throw (.connect .failedPrecondition
        "no transcript chunks found — run Step 4 (chunk transcript) first")
  | .unspecified => throw unsupportedTaskKind

/-- The check of `MaxActivePerUser`. -/
def requireUnderCap (s : AiSvc) (userID : UUID) : Handler Unit := do
  if 0 < s.maxActivePerUser then
    let activeCount ← orConnectDBError (.countActiveTasksByUser userID)
    if s.maxActivePerUser ≤ activeCount then
      throw (.connect .resourceExhausted ("bạn đã chạy quá nhiều tác vụ cùng lúc, giới hạn là " ++
        toString s.maxActivePerUser))

/-- The transaction of `StartLessonTask` on the locked row.  An active task of the same kind is
returned instead of a new one. -/
def startInTx (s : AiSvc) (caller : Except Error UUID) (req : StartLessonTaskRequest)
    (taskType : String) (userID : UUID) (chunkID : Option UUID) : Handler Task := do
  match ← Handler.query (.getActiveTask req.lessonId taskType chunkID) with
  | .ok activeTask =>
    match ← Handler.query (.commit req.lessonId) with
    | .ok () => return activeTask
    | .error e => throw (.db e)
  | .error _ =>
    requireUnderCap s userID
    preflightLessonTask caller req.kind req.lessonId
    let inputPayload ← require (lessonTaskInputForKind s req)
    orConnectDBError (.insertTask req.lessonId chunkID taskType (some inputPayload) userID)

def startLessonTask (s : AiSvc) (caller : Except Error UUID) (req : StartLessonTaskRequest) :
    Handler LessonTask := do
  let taskType ← require (taskTypeFromKind req.kind)
  orConnectDBError (.getOrgIDByLessonID req.lessonId)
  let userID ← require caller
  let chunkID ← requestedChunk req
  orConnectDBError (.lockLesson req.lessonId)
  match ← ExceptT.lift (startInTx s caller req taskType userID chunkID).run with
  | .ok task => return lessonTaskToProto task
  | .error e =>
    Handler.ignore (.pg (.rollback req.lessonId))
    throw e

def mapTaskDBError : DbError → Error
  | .noRows => .connect .notFound "task not found"
  | e => .connect .internal e.text

def orTaskDBError (q : Query) : Handler q.Result := do
  match ← Handler.query q with
  | .ok a => return a
  | .error e => throw (mapTaskDBError e)

/-- `CancelLessonTask`; `admin` and `teacher` are what the two role checks answer. -/
def cancelLessonTask (admin : Bool) (teacher : Except Error UUID) (taskId : UUID) :
    Handler LessonTask := do
  let task ← orTaskDBError (.getTask taskId)
  if !admin then
    orConnectDBError (.getOrgIDByLessonID task.lessonId)
    let _ ← require teacher
  orTaskDBError (.cancelTask taskId)
  return lessonTaskToProto (← orTaskDBError (.getTask taskId))

/-- The elements of a path that `path.Clean` keeps; `out` is what it has kept so far, in reverse
order. -/
def cleanElements (rooted : Bool) : List (List Char) → List (List Char) → List (List Char)
  | out, [] => out.reverse
  | out, e :: es =>
    if e = [] || e = ['.'] then cleanElements rooted out es
    else if e = ['.', '.'] then
      match out with
      | [] => cleanElements rooted (if rooted then [] else [e]) es
      | top :: rest => cleanElements rooted (if top = ['.', '.'] then e :: out else rest) es
    else cleanElements rooted (e :: out) es

/-- `path.Clean`. -/
def pathClean (p : String) : String :=
  let rooted := p.toList.head? = some '/'
  let body := List.intercalate ['/'] (cleanElements rooted [] (p.toList.splitOn '/'))
  let cleaned := if rooted then '/' :: body else body
  if cleaned = [] then "." else String.ofList cleaned

def validateLessonVideoKey (lessonID : UUID) (key : String) : Except String Unit :=
  let within := "lessons/" ++ toString lessonID ++ "/"
  let rest := key.toList.drop within.length
  if trimSpace key = "" then .error "video storage key is required"
  else if pathClean key ≠ key then .error "video storage key contains invalid path components"
  else if key.toList.head? = some '/' || contains key ".." then
    .error "video storage key must not be absolute or contain .."
  else if !within.toList.isPrefixOf key.toList then
    .error "video storage key must belong to the lesson"
  else if rest = [] then .error "video storage key must include a filename"
  else if rest = "video".toList || "video/".toList.isPrefixOf rest ||
      "video.".toList.isPrefixOf rest then .ok ()
  else .error "video storage key must be under the lesson video path"

structure UpdateLessonVideoRequest where
  id : UUID
  videoStorageKey : String
  durationSeconds : Int
  deriving DecidableEq

/-- The chunks whose transcripts are to be deleted; a failing read finds none. -/
def chunkIDsToClean (s : AiSvc) (existing : Lesson) : Handler (List UUID) := do
  if existing.videoStorageKey.isSome then
    match ← Handler.query (.listLessonTranscriptChunks existing.id s.listLimit) with
    | .error _ => return []
    | .ok chunks => return chunks.val.map (·.id)
  else return []

/-- The deletions from FoundationDB, of which nothing is checked. -/
def deleteRecords (lessonID : UUID) (chunkIDs : List UUID) : Handler Unit := do
  Handler.ignore (.deleteTranscript lessonID)
  Handler.ignore (.deleteSegments lessonID)
  Handler.ignoreAll (chunkIDs.map .deleteChunkTranscript)

/-- `UpdateLessonVideo`; `caller` is what `RequireOrgRole` answers. -/
def updateLessonVideo (s : AiSvc) (caller : Except Error UUID) (req : UpdateLessonVideoRequest) :
    Handler Lesson := do
  let existing ← orConnectDBError (.getLessonByID req.id)
  let _ ← require caller
  match validateLessonVideoKey existing.id req.videoStorageKey with
  | .error text => throw (.connect .invalidArgument text)
  | .ok () =>
    if ← Handler.perform (.statObject req.videoStorageKey) then
      let chunkIDs ← chunkIDsToClean s existing
      let updated ← orConnectDBError (.replaceVideo existing.id req.videoStorageKey
        (if 0 < req.durationSeconds then some req.durationSeconds.toNat else none)
        existing.videoStorageKey.isSome)
      if existing.videoStorageKey.isSome then deleteRecords existing.id chunkIDs
      return updated
    else throw (.connect .notFound "video file not found in storage")

def resetChunkListLimit : Nat := 1000

/-- `ResetLessonContent`; `caller` is what `RequireOrgRole` answers. -/
def resetLessonContent (caller : Except Error UUID) (lessonID : UUID) : Handler Unit := do
  orConnectDBError (.getOrgIDByLessonID lessonID)
  let _ ← require caller
  let _ ← orConnectDBError (.getLessonByID lessonID)
  let chunks ← orConnectDBError (.listLessonTranscriptChunks lessonID resetChunkListLimit)
  orConnectDBError (.deleteLessonInteractionsByLesson lessonID)
  orConnectDBError (.deleteLessonTranscriptChunks lessonID)
  orConnectDBError (.deleteLessonAttempts lessonID)
  orConnectDBError (.deleteLessonAnalysis lessonID)
  orConnectDBError (.deleteTasksForLesson lessonID)
  let _ ← orConnectDBError (.updateLessonVideo lessonID none none)
  deleteRecords lessonID (chunks.val.map (·.id))

/-- What runs side by side: a claim of a worker process with the goroutine that it spawns, a
heartbeat, the two statements of the scanner, and the requests. -/
inductive Party
  | worker (workerId : UUID) (allowedTypes : List String)
  | heartbeat (taskId workerId : UUID)
  | reapStaleProcessingBatch (limit : Nat) (staleBefore : Timestamptz)
  | requeueOrphanedInqueuedBatch (limit : Nat) (staleBefore : Timestamptz)
  | startLessonTask (caller : Except Error UUID) (req : StartLessonTaskRequest)
  | cancelLessonTask (admin : Bool) (teacher : Except Error UUID) (taskId : UUID)
  | updateLessonVideo (caller : Except Error UUID) (req : UpdateLessonVideoRequest)
  | resetLessonContent (caller : Except Error UUID) (lessonId : UUID)

/-- What a party returns. -/
inductive Reply
  | done
  | task (r : Except Error LessonTask)
  | started (r : Except Error LessonTask)
  | lesson (r : Except Error Lesson)

/-- A single statement. -/
def statement (q : Query) : Prog Op Op.Resp Reply := do
  let _ ← Prog.perform (Op.pg q)
  return .done

def Party.program (s : AiSvc) : Party → Prog Op Op.Resp Reply
  | .worker workerId allowedTypes => do
    claimAndRun s workerId allowedTypes
    return .done
  | .heartbeat taskId workerId => statement (.heartbeatTask taskId (some workerId))
  | .reapStaleProcessingBatch limit staleBefore =>
    statement (.reapStaleProcessingBatch limit staleBefore)
  | .requeueOrphanedInqueuedBatch limit staleBefore =>
    statement (.requeueOrphanedInqueuedBatch limit staleBefore)
  | .startLessonTask caller req => return .started (← (Lessons.startLessonTask s caller req).run)
  | .cancelLessonTask admin teacher taskId =>
    return .task (← (Lessons.cancelLessonTask admin teacher taskId).run)
  | .updateLessonVideo caller req =>
    return .lesson (← (Lessons.updateLessonVideo s caller req).run)
  | .resetLessonContent caller lessonId => do
    let _ ← (Lessons.resetLessonContent caller lessonId).run
    return .done

/-- Any number of parties over one store. -/
abbrev System (n : Nat) := Pool (Fin n) Store Op Op.Resp Reply

def System.start {n : Nat} (s : AiSvc) (party : Fin n → Party) (store : Store) : System n :=
  Pool.start store fun i => (party i).program s

def system (n : Nat) : Machine (System n) (Fin n × Env) := Pool.machine fun i => exec i.val

abbrev History := List (Prog.Event Op Op.Resp)

end Richter.Lessons
