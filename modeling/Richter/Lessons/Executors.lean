import Richter.Lessons.Generation

/-! The executors of the four kinds of tasks (`internal/svc/aitasks/executors`) and the worker's
`runTask` (`internal/taskqueue/worker.go`). -/

namespace Richter.Lessons

open Lib
open TaskQueue (Bytes Task)

inductive PipelineStage
  | unspecified
  | transcribed
  | chunked
  | generated
  deriving DecidableEq, Repr

/-- The number of the value in the protocol. -/
def PipelineStage.number : PipelineStage → Nat
  | .unspecified => 0
  | .transcribed => 1
  | .chunked => 2
  | .generated => 3

structure PipelineRunTaskOutput where
  completedAt : Nat := 0
  stage : PipelineStage
  deriving DecidableEq

/-- What the executors read of the input messages of the four kinds; an empty `lesson_id` or
`chunk_id` is `none`. -/
structure TaskInput where
  lessonId : Option UUID := none
  chunkId : Option UUID := none
  forceRegenerate : Bool := false
  options : GenerateOptions := ⟨[], 0, 0, "", ""⟩
  deriving DecidableEq

/-- The generated code of the protocol: how payloads are written and read, by the type of the task.
A written output is read back, and no bytes are an output whose fields have their defaults. -/
structure Proto where
  marshalInput : String → TaskInput → Bytes
  unmarshalInput : String → Bytes → Except String TaskInput
  marshalOutput : PipelineRunTaskOutput → Bytes
  unmarshalOutput : Bytes → Option PipelineRunTaskOutput
  marshalCompletedAt : Nat → Bytes
  unmarshal_marshal : ∀ out, unmarshalOutput (marshalOutput out) = some out
  unmarshal_nil : unmarshalOutput [] = some ⟨0, .unspecified⟩

def PipelineStage.ofNumber : UInt8 → Option PipelineStage
  | 0 => some .unspecified
  | 1 => some .transcribed
  | 2 => some .chunked
  | 3 => some .generated
  | _ => none

/-- A simple protocol: numbers are unary, and a byte 0 ends an id. -/
def unaryProto : Proto where
  marshalInput _ input :=
    (if input.forceRegenerate then 1 else 0) :: (List.replicate (input.lessonId.getD 0) 1 ++
      0 :: List.replicate (input.chunkId.getD 0) 1)
  unmarshalInput _
    | [] => .ok {}
    | force :: ids =>
      let lesson := (ids.takeWhile (· = 1)).length
      let chunk := ids.length - lesson - 1
      .ok { lessonId := if lesson = 0 then none else some lesson
            chunkId := if chunk = 0 then none else some chunk
            forceRegenerate := force = 1 }
  marshalOutput out := UInt8.ofNat out.stage.number :: List.replicate out.completedAt 1
  unmarshalOutput
    | [] => some ⟨0, .unspecified⟩
    | stage :: rest => (PipelineStage.ofNumber stage).map fun stage => ⟨rest.length, stage⟩
  marshalCompletedAt now := List.replicate now 1
  unmarshal_marshal out := by
    obtain ⟨completedAt, stage⟩ := out
    cases stage <;> simp [PipelineStage.number, PipelineStage.ofNumber]
  unmarshal_nil := rfl

structure AiSvc extends AiCfg where
  proto : Proto

/-- The input of a task; an empty payload is not decoded. -/
def taskInput (s : AiSvc) (taskType : String) (input : Option Bytes) : Except Fail TaskInput :=
  match input.getD [] with
  | [] => .ok {}
  | payload =>
    match s.proto.unmarshalInput taskType payload with
    | .ok input => .ok input
    | .error text => .error (errorf (taskType ++ ": bad input: " ++ text))

/-- `parseUUID`. -/
def parseUUID (id : Option UUID) : Except Fail UUID :=
  match id with
  | some id => .ok id
  | none => .error (errorf "empty uuid")

/-- The lesson that an executor works on. -/
def taskLesson (s : AiSvc) (taskType : String) (input : Option Bytes) : Except Fail UUID := do
  let input ← taskInput s taskType input
  parseUUID input.lessonId

/-- The highest stage that an earlier run has completed. -/
def doneStage (s : AiSvc) (priorOutput : Option Bytes) : PipelineStage :=
  match priorOutput.getD [] with
  | [] => .unspecified
  | payload => ((s.proto.unmarshalOutput payload).map (·.stage)).getD .unspecified

def shouldForceGen (forceRegenerate : Bool) (doneStage : PipelineStage) : Bool :=
  forceRegenerate && decide (doneStage.number < PipelineStage.chunked.number)

def orThrow {α : Type} : Except Fail α → Exec α
  | .ok a => pure a
  | .error e => throw e

/-- An executor: its work, and then its output with the time. -/
def stamped (work : Exec Unit) (output : Nat → Bytes) : Exec Bytes := do
  work
  return output (← perform .unixNow)

def transcribeWork (s : AiSvc) (env : TaskEnv) : Exec Unit := do
  let lessonID ← orThrow (taskLesson s env.taskType env.input)
  transcriptRun s.toAiCfg env lessonID

/-- `TranscribeExecutor.Execute`. -/
def transcribeExecute (s : AiSvc) (env : TaskEnv) : Exec Bytes :=
  stamped (transcribeWork s env) s.proto.marshalCompletedAt

def chunkWork (s : AiSvc) (env : TaskEnv) : Exec Unit := do
  let lessonID ← orThrow (taskLesson s env.taskType env.input)
  runChunk s.toAiCfg env lessonID

/-- `ChunkExecutor.Execute`. -/
def chunkExecute (s : AiSvc) (env : TaskEnv) : Exec Bytes :=
  stamped (chunkWork s env) s.proto.marshalCompletedAt

def quizGenWork (s : AiSvc) (env : TaskEnv) : Exec Unit := do
  let input ← orThrow (taskInput s env.taskType env.input)
  let lessonID ← orThrow (parseUUID input.lessonId)
  generationRun s.toAiCfg env lessonID ⟨input.chunkId, input.forceRegenerate, input.options⟩

/-- `QuizGenExecutor.Execute`. -/
def quizGenExecute (s : AiSvc) (env : TaskEnv) : Exec Bytes :=
  stamped (quizGenWork s env) s.proto.marshalCompletedAt

/-- `saveCheckpoint`. -/
def saveCheckpoint (s : AiSvc) (env : TaskEnv) (stage : PipelineStage) : Exec Unit :=
  ignore (.pg (.setTaskCheckpoint env.taskID (some (s.proto.marshalOutput { stage := stage }))
    (some env.workerID)))

/-- The progress that `reportStage` writes. -/
def reportStage (env : TaskEnv) (step : String) (current : Int) (msg : String) : Exec Unit :=
  ignore (.pg (.updateTaskProgress env.taskID step current 3 msg))

def transcribeStage (s : AiSvc) (env : TaskEnv) (lessonID : UUID) : Exec Unit := do
  reportStage env "TRANSCRIBING" 1 "Đang phiên âm video..."
  tryCatch (transcriptRun s.toAiCfg { env with stageLabel := "TRANSCRIBING" } lessonID)
    fun e => throw (e.wrap "pipeline_run: transcribe stage: ")
  saveCheckpoint s env .transcribed

def chunkStage (s : AiSvc) (env : TaskEnv) (lessonID : UUID) : Exec Unit := do
  reportStage env "CHUNKING" 2 "Đang phân đoạn transcript..."
  tryCatch (runChunk s.toAiCfg { env with stageLabel := "CHUNKING" } lessonID)
    fun e => throw (e.wrap "pipeline_run: chunk stage: ")
  saveCheckpoint s env .chunked

def generateStage (s : AiSvc) (env : TaskEnv) (lessonID : UUID) (input : TaskInput)
    (doneStage : PipelineStage) : Exec Unit := do
  reportStage env "GENERATING" 3 "Đang tạo bài tập..."
  tryCatch (generationRun s.toAiCfg { env with stageLabel := "GENERATING" } lessonID
      ⟨none, shouldForceGen input.forceRegenerate doneStage, input.options⟩)
    fun e => throw (e.wrap "pipeline_run: quiz_gen stage: ")

/-- The stages that are left. -/
def pipelineStages (s : AiSvc) (env : TaskEnv) (lessonID : UUID) (input : TaskInput)
    (done : PipelineStage) : Exec Unit := do
  if done.number < PipelineStage.transcribed.number then transcribeStage s env lessonID
  if done.number < PipelineStage.chunked.number then chunkStage s env lessonID
  generateStage s env lessonID input done

def pipelineRunWork (s : AiSvc) (env : TaskEnv) : Exec Unit := do
  let input ← orThrow (taskInput s env.taskType env.input)
  let lessonID ← orThrow (parseUUID input.lessonId)
  pipelineStages s env lessonID input (doneStage s env.priorOutput)

/-- `PipelineRunExecutor.Execute`. -/
def pipelineRunExecute (s : AiSvc) (env : TaskEnv) : Exec Bytes :=
  stamped (pipelineRunWork s env) fun now => s.proto.marshalOutput ⟨now, .generated⟩

/-- The registered executors. -/
def lookup (s : AiSvc) (env : TaskEnv) : Option (Exec Bytes) :=
  match env.taskType with
  | "transcribe" => some (transcribeExecute s env)
  | "chunk" => some (chunkExecute s env)
  | "quiz_gen" => some (quizGenExecute s env)
  | "pipeline_run" => some (pipelineRunExecute s env)
  | _ => none

def taskEnv (workerID : UUID) (task : Task) : TaskEnv :=
  ⟨task.id, task.taskType, workerID, task.inputPayload, task.outputPayload, ""⟩

/-- `runTask`, up to its terminal write. -/
def finishTask (workerID : UUID) (task : Task) (result : Except Fail Bytes) :
    Prog Op Op.Resp Unit := do
  match result with
  | .error e =>
    if e.canceled then return
    else
      let _ ← Prog.perform (Op.pg (.markFailed task.id (some e.text) (some workerID)))
      return
  | .ok output =>
    let _ ← Prog.perform (Op.pg (.markSucceeded task.id (some output) (some workerID)))
    return

def runTask (s : AiSvc) (workerID : UUID) (task : Task) : Prog Op Op.Resp Unit := do
  match lookup s (taskEnv workerID task) with
  | none =>
    let _ ← Prog.perform (Op.pg (.markFailed task.id
      (some ("unknown task type: " ++ task.taskType)) (some workerID)))
    return
  | some execute => finishTask workerID task (← execute.run)

/-- A claim, and the goroutine that it spawns. -/
def claimAndRun (s : AiSvc) (workerID : UUID) (allowedTypes : List String) :
    Prog Op Op.Resp Unit := do
  match ← Prog.perform (Op.pg (.claimNextInqueuedTask workerID allowedTypes)) with
  | .error _ => return
  | .ok task => runTask s workerID task

end Richter.Lessons
