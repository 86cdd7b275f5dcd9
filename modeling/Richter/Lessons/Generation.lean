import Mathlib.Data.List.Infix
import Richter.Lessons.Transcribe

/-! The generation stage: `Service.Run` (`internal/svc/ai/generation/service.go`). -/

namespace Richter.Lessons

open Lib

structure GenerateInteractionsRequest where
  chunkId : Option UUID
  forceRegenerate : Bool
  options : GenerateOptions
  deriving DecidableEq

/-- `strings.Contains`. -/
def contains (s sub : String) : Bool := decide (sub.toList <:+: s.toList)

def extractStatusCode (msg : String) : String :=
  (["503", "429", "500", "502", "504"].find? (contains msg)).getD "rate limit"

def friendlyGeminiError (e : Fail) : String :=
  if ["429", "quota", "rate limit", "ratelimit", "RATE_LIMIT_EXCEEDED", "RESOURCE_EXHAUSTED", "503",
      "overloaded"].any (contains e.text) then
    "Vượt hạn mức Gemini API (" ++ extractStatusCode e.text ++ "). Vui lòng thử lại sau vài phút."
  else e.text

def loadTargetChunks (cfg : AiCfg) (lessonID : UUID) (chunkID : Option UUID) : Exec ChunkList := do
  match chunkID with
  | some chunkID =>
    match ← query (.getLessonTranscriptChunk chunkID) with
    | .error e => throw (Error.fail (connectDBError e))
    | .ok c =>
      if c.lessonId ≠ lessonID then
        throw (Error.fail (.connect .invalidArgument
          "chunk does not belong to the requested lesson"))
      else return ⟨[c], List.nodup_singleton _⟩
  | none =>
    match ← query (.listLessonTranscriptChunks lessonID cfg.chunksLimit) with
    | .error e => throw (Error.fail (connectDBError e))
    | .ok chunks => return chunks

/-- The request is for the whole lesson, and only fills its empty chunks. -/
def GenerateInteractionsRequest.fills (req : GenerateInteractionsRequest) : Bool :=
  !req.forceRegenerate && req.chunkId.isNone

/-- The chunks that the run skips; a failing read finds none. -/
def chunksWithInteractions (cfg : AiCfg) (lessonID : UUID) (req : GenerateInteractionsRequest) :
    Exec (List UUID) := do
  if req.fills then
    match ← query (.listLessonInteractions lessonID cfg.interactionsLimit) with
    | .error _ => return []
    | .ok rows => return rows.filterMap (·.chunkId)
  else return []

/-- The counters of the loop. -/
structure Tally where
  savedThisRun : Nat := 0
  failedChunks : Nat := 0
  lastGenErr : Fail := errorf ""
  deriving DecidableEq

/-- What the rounds of the loop share. -/
structure Generation where
  env : TaskEnv
  lesson : Lesson
  req : GenerateInteractionsRequest
  chunkHasInteractions : List UUID
  total : Nat
  deriving DecidableEq

/-- The place of a chunk in progress messages. -/
def Generation.place (g : Generation) (i : Nat) : String := toString (i + 1) ++ "/" ++
  toString g.total

def Generation.send (g : Generation) (step msg : String) (i : Nat) : Exec Unit :=
  g.env.progress ("GENERATE_INTERACTIONS_STEP_" ++ step) i g.total msg

/-- A chunk's items are saved; `none` when the context is done. -/
def saveItems (g : Generation) (lessonID : UUID) (tally : Tally) (i : Nat)
    (chunk : LessonTranscriptChunk) (items : List GeneratedItem) : Exec (Option Tally) := do
  match ← query (.saveInteractionsForChunk lessonID chunk.id items g.req.forceRegenerate) with
  | .error e =>
    if ← perform .ctxErr then return none
    else
      g.send "ERROR" ("Lỗi lưu bài tập đoạn " ++ g.place i ++ ": " ++ e.text ++
        " — bỏ qua, tiếp tục") i
      return some tally
  | .ok saved =>
    g.send "CHUNK" ("Hoàn thành đoạn " ++ g.place i ++ ": " ++ chunk.summary ++ " (" ++
      toString saved.length ++ " bài tập)") i
    return some { tally with savedThisRun := tally.savedThisRun + saved.length }

/-- A chunk's items are generated and saved; one whose generation fails is left as it is. -/
def fillChunk (g : Generation) (lessonID : UUID) (tally : Tally) (i : Nat)
    (chunk : LessonTranscriptChunk) : Exec (Option Tally) := do
  let text ← perform (.fetchChunkTranscript chunk.id)
  if trimSpace text = "" then
    g.send "ERROR" ("Đoạn " ++ g.place i ++ " không có nội dung transcript, bỏ qua") i
    return some tally
  else
    match ← perform (.generateForChunk chunk text g.lesson.language g.req.options) with
    | .error e =>
      if ← perform .ctxErr then return none
      else
        g.send "ERROR" ("Đoạn " ++ g.place i ++ ": gọi AI thất bại (" ++ friendlyGeminiError e ++
          ") — giữ nguyên bài tập cũ, tiếp tục") i
        return some { tally with failedChunks := tally.failedChunks + 1, lastGenErr := e }
    | .ok [] => return some tally
    | .ok items => saveItems g lessonID tally i chunk items

/-- One round of the loop; `none` when the context is done. -/
def generateChunk (g : Generation) (lessonID : UUID) (tally : Tally) (i : Nat)
    (chunk : LessonTranscriptChunk) : Exec (Option Tally) := do
  if ← perform .ctxErr then return none
  else if g.req.fills && g.chunkHasInteractions.contains chunk.id then
    g.send "CHUNK" ("Đoạn " ++ g.place i ++ " đã có bài tập, bỏ qua") i
    return some tally
  else fillChunk g lessonID tally i chunk

/-- The loop, from the chunk with index `i`. -/
def generateChunks (g : Generation) (lessonID : UUID) :
    Nat → Tally → List LessonTranscriptChunk → Exec (Option Tally)
  | _, tally, [] => return some tally
  | i, tally, chunk :: chunks => do
    match ← generateChunk g lessonID tally i chunk with
    | none => return none
    | some tally => generateChunks g lessonID (i + 1) tally chunks

/-- The lesson has an interaction, as far as it can be read. -/
def hasExistingInteractions (lessonID : UUID) (req : GenerateInteractionsRequest) : Exec Bool := do
  if req.chunkId.isNone then
    match ← query (.listLessonInteractions lessonID 1) with
    | .error _ => return false
    | .ok existing => return !existing.isEmpty
  else return false

/-- What follows the loop. -/
def concludeGeneration (g : Generation) (lessonID : UUID) (tally : Tally) : Exec Unit := do
  if tally.savedThisRun = 0 then
    if 0 < tally.failedChunks then
      throw (Error.fail (.connect .unavailable ("sinh bài tập thất bại: " ++
        toString tally.failedChunks ++ "/" ++ toString g.total ++ " đoạn lỗi khi gọi AI (" ++
        friendlyGeminiError tally.lastGenErr ++
        ") — thường do hết hạn mức (quota) hoặc khóa API Gemini; kiểm tra rồi thử lại")))
    else if ← hasExistingInteractions lessonID g.req then g.send "DONE" "" 0
    else
      g.send "ERROR" ("Không tạo được bài tập nào từ các phân đoạn hiện tại. Hãy kiểm tra " ++
        "transcript, cấu hình loại câu hỏi hoặc thử lại.") 0
  else g.send "DONE" "" 0

/-- `Service.Run`, called through `generationSvcImpl.Run`. -/
def generationRun (cfg : AiCfg) (env : TaskEnv) (lessonID : UUID)
    (req : GenerateInteractionsRequest) : Exec Unit := do
  let chunks ← loadTargetChunks cfg lessonID req.chunkId
  if chunks.val = [] then
    throw (Error.fail (.connect .failedPrecondition
      "no transcript chunks found — run Step 4 (chunk transcript) first"))
  else
    match ← query (.getLessonByID lessonID) with
    | .error e => throw (Error.fail (connectDBError e))
    | .ok lesson =>
      let chunkHasInteractions ← chunksWithInteractions cfg lessonID req
      let g : Generation := ⟨env, lesson, req, chunkHasInteractions, chunks.val.length⟩
      match ← generateChunks g lessonID 0 {} chunks.val with
      | none => return
      | some tally => concludeGeneration g lessonID tally

end Richter.Lessons
