import Richter.Lessons.Store

/-! The transcribe and the chunk stage: `RunExtract` and `RunChunk`
(`internal/svc/ai/transcript`) with their wrapper (`internal/svc/aitasks/svc`). -/

namespace Richter.Lessons

open Lib
open TaskQueue (Bytes)

abbrev Exec := ExceptT Fail (Prog Op Op.Resp)

def perform (o : Op) : Exec o.Resp := ExceptT.lift (Prog.perform o)

def query (q : Query) : Exec (Except DbError q.Result) := perform (.pg q)

/-- An operation whose outcome is only logged, or not looked at. -/
def ignore (o : Op) : Exec Unit := do
  let _ ← perform o
  return

def ignoreAll : List Op → Exec Unit
  | [] => return
  | o :: os => do
    ignore o
    ignoreAll os

/-- The error of a handler as the error of an executor. -/
def Error.fail : Error → Fail
  | .connect code message => errorf (code.text ++ ": " ++ message)
  | .db e => failOf e

/-- The settings: the limits of the list queries, `MaxActivePerUser` (0 for none), and
`unicode.ToLower`. -/
structure AiCfg where
  chunksLimit : Nat
  interactionsLimit : Nat
  lessonOpsLimit : Nat
  listLimit : Nat
  maxActivePerUser : Nat
  toLower : Char → Char

/-- `taskqueue.Env`. -/
structure TaskEnv where
  taskID : UUID
  taskType : String
  workerID : UUID
  input : Option Bytes
  priorOutput : Option Bytes
  stageLabel : String
  deriving DecidableEq

def effectiveProgressStep (detailed stageLabel : String) : String :=
  if stageLabel ≠ "" then stageLabel else detailed

/-- A progress callback; its error is dropped. -/
def TaskEnv.progress (env : TaskEnv) (step : String) (current total : Int) (msg : String) :
    Exec Unit :=
  ignore (.pg (.updateTaskProgress env.taskID (effectiveProgressStep step env.stageLabel) current
    total msg))

/-- The clean-up at the start of `RunExtract`, of which nothing is checked. -/
def clearStale (cfg : AiCfg) (lessonID : UUID) : Exec Unit := do
  ignore (.deleteTranscript lessonID)
  ignore (.deleteSegments lessonID)
  let existing ← query (.listLessonTranscriptChunks lessonID cfg.lessonOpsLimit)
  ignore (.pg (.deleteLessonInteractionsByLesson lessonID))
  ignore (.pg (.deleteLessonTranscriptChunks lessonID))
  match existing with
  | .error _ => return
  | .ok chunks => ignoreAll (chunks.val.map fun c => .deleteChunkTranscript c.id)

/-- What is saved of a transcription. -/
def saveTranscription (lessonID : UUID) (transcriptText : String) (segs : List Segment) :
    Exec Unit := do
  if transcriptText ≠ "" then
    ignore (.saveTranscript lessonID transcriptText)
  if segs ≠ [] then
    ignore (.saveSegments lessonID segs)

/-- What `RunExtract` does under the lock of the lesson. -/
def extract (cfg : AiCfg) (env : TaskEnv) (lessonID : UUID) (videoKey audioLang : String) :
    Exec Unit := do
  clearStale cfg lessonID
  match ← perform (.transcription videoKey audioLang) with
  | .error e => throw e
  | .ok (transcriptText, segs) =>
    if isDegenerateTranscript cfg.toLower transcriptText then
      throw (errorf ("phiên âm bị lặp bất thường — âm thanh có thể quá ngắn, nhiều nhạc/nhiễu, " ++
        "hoặc không rõ tiếng nói. Vui lòng thử lại hoặc dùng video có lời nói rõ hơn."))
    else
      env.progress "ANALYSIS_PROGRESS_STEP_SAVING" 0 0 "Đang lưu kết quả..."
      saveTranscription lessonID transcriptText segs

/-- `RunExtract`.  The lock is released on every way out. -/
def runExtract (cfg : AiCfg) (env : TaskEnv) (lessonID : UUID) (videoKey audioLang : String) :
    Exec Unit := do
  if ← perform (.tryAcquire env.workerID lessonID) then
    let result ← ExceptT.lift (extract cfg env lessonID videoKey audioLang).run
    ignore (.release env.workerID lessonID)
    match result with
    | .ok () => return
    | .error e => throw e
  else throw (errorf "Phân tích đang được xử lý cho bài học này. Vui lòng chờ.")

/-- `transcriptSvcImpl.Run`.  The deletion of the other tasks is best effort. -/
def transcriptRun (cfg : AiCfg) (env : TaskEnv) (lessonID : UUID) : Exec Unit := do
  match ← query (.getLessonByID lessonID) with
  | .error e => throw ((failOf e).wrap "load lesson video key: ")
  | .ok lesson =>
    if lesson.videoStorageKey.getD "" = "" then throw (errorf "lesson has no video uploaded")
    else
      ignore (.pg (.deleteTasksForLessonExcept lessonID env.taskID))
      runExtract cfg env lessonID (lesson.videoStorageKey.getD "") lesson.audioLanguage

/-- The transcript of a new chunk, and the whole one if no segment falls into the chunk. -/
def chunkTranscript (transcriptText : String) (allSegs : List Segment)
    (c : LessonTranscriptChunk) : String :=
  let text := buildChunkTranscript allSegs c.startSeconds c.endSeconds
  if text = "" then transcriptText else text

/-- What `RunChunk` does in FoundationDB after its transaction. -/
def saveChunkTranscripts (transcriptText : String) (allSegs : List Segment) (saved : SavedChunks) :
    Exec Unit := do
  ignoreAll (saved.staleChunkIDs.map .deleteChunkTranscript)
  ignoreAll ((saved.chunks.filter fun c => chunkTranscript transcriptText allSegs c ≠ "").map
    fun c => .saveChunkTranscript c.id (chunkTranscript transcriptText allSegs c))

/-- `RunChunk` from the model's proposals on. -/
def saveProposals (cfg : AiCfg) (env : TaskEnv) (lessonID : UUID) (transcriptText : String)
    (allSegs : List Segment) (chunks : List ChunkProposal) : Exec Unit := do
  env.progress "ANALYSIS_PROGRESS_STEP_SAVING" 0 0 "Đang lưu các đoạn..."
  match ← query (.saveChunks lessonID cfg.chunksLimit chunks) with
  | .error e => throw ((failOf e).wrap "Lỗi khi lưu đoạn nội dung: ")
  | .ok saved => saveChunkTranscripts transcriptText allSegs saved

/-- `RunChunk`.  A lesson that cannot be read has no language. -/
def runChunk (cfg : AiCfg) (env : TaskEnv) (lessonID : UUID) : Exec Unit := do
  let transcriptText ← perform (.loadTranscript lessonID)
  if transcriptText = "" then
    throw (Error.fail (.connect .failedPrecondition
      "no transcript found — run Step 2 (extract transcript) first"))
  else if isDegenerateTranscript cfg.toLower transcriptText then
    throw (Error.fail (.connect .failedPrecondition ("phiên âm bị lặp bất thường — vui lòng chạy " ++
      "lại bước phiên âm (Trích xuất transcript) trước khi phân đoạn")))
  else
    let segments ← perform (.loadSegments lessonID)
    let allSegs ← perform (.loadSegments lessonID)
    let lesson ← query (.getLessonByID lessonID)
    let language := match lesson with
      | .ok l => l.language
      | .error _ => ""
    env.progress "ANALYSIS_PROGRESS_STEP_ANALYZING" 0 0
      "Đang phân tích nội dung để xác định đoạn..."
    match ← perform (.chunk transcriptText segments language) with
    | .error e => throw e
    | .ok [] =>
      throw (errorf ("Gemini returned 0 chunks — transcript may be too short or model response " ++
        "was empty"))
    | .ok chunks => saveProposals cfg env lessonID transcriptText allSegs chunks

end Richter.Lessons
