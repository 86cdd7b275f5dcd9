import Richter.Lessons.Requests

/-! The operations of each party: an executor works on the content of its lesson and reports, then
it looks at the clock, and its last operation is the terminal write. -/

namespace Richter.Lessons

open Lib
open TaskQueue (Bytes Task)
open Handler (orConnectDBError require)

/-- The statements of the transcribe stage of a task. -/
def Query.transcribing (taskID : UUID) : Query → Bool
  | .getLessonByID _ | .listLessonTranscriptChunks .. | .deleteLessonInteractionsByLesson _
  | .deleteLessonTranscriptChunks _ => true
  | .deleteTasksForLessonExcept _ id | .updateTaskProgress id .. => id = taskID
  | _ => false

def Op.transcribing (taskID : UUID) : Op → Bool
  | .pg q => q.transcribing taskID
  | .saveTranscript .. | .deleteTranscript _ | .saveSegments .. | .deleteSegments _
  | .deleteChunkTranscript _ | .tryAcquire .. | .release .. | .transcription .. => true
  | _ => false

/-- The statements of the chunk stage of a task. -/
def Query.chunking (taskID : UUID) : Query → Bool
  | .getLessonByID _ | .saveChunks .. => true
  | .updateTaskProgress id .. => id = taskID
  | _ => false

def Op.chunking (taskID : UUID) : Op → Bool
  | .pg q => q.chunking taskID
  | .loadTranscript _ | .loadSegments _ | .chunk .. | .deleteChunkTranscript _
  | .saveChunkTranscript .. => true
  | _ => false

/-- The statements of the generation stage of a task. -/
def Query.generating (taskID : UUID) : Query → Bool
  | .getLessonByID _ | .listLessonTranscriptChunks .. | .getLessonTranscriptChunk _
  | .listLessonInteractions .. | .saveInteractionsForChunk .. => true
  | .updateTaskProgress id .. => id = taskID
  | _ => false

def Op.generating (taskID : UUID) : Op → Bool
  | .pg q => q.generating taskID
  | .fetchChunkTranscript _ | .generateForChunk .. | .ctxErr => true
  | _ => false

/-- What an executor performs while it works on a task. -/
def Op.working (taskID : UUID) (o : Op) : Bool :=
  o.transcribing taskID || o.chunking taskID || o.generating taskID ||
    match o with
    | .pg (.setTaskCheckpoint id ..) => id = taskID
    | _ => false

/-- A report that is made under the label of a stage names the stage. -/
def Op.reportsAs (label : String) : Op → Bool
  | .pg (.updateTaskProgress _ step ..) => label = "" || step = label
  | _ => true

/-- What a stage performs in the environment of its task. -/
def Op.under (env : TaskEnv) (stage : UUID → Op → Bool) (o : Op) : Bool :=
  stage env.taskID o && o.reportsAs env.stageLabel

section Under

variable {env : TaskEnv} {stage : UUID → Op → Bool} {o : Op}

theorem stage_of_under (h : o.under env stage = true) : stage env.taskID o = true :=
  (Bool.and_eq_true_iff.mp h).1

theorem reportsAs_of_under (h : o.under env stage = true) : o.reportsAs env.stageLabel = true :=
  (Bool.and_eq_true_iff.mp h).2

theorem working_of_transcribing (o : Op) (h : o.under env Op.transcribing) :
    o.working env.taskID := by
  simp [Op.working, stage_of_under h]

theorem working_of_chunking (o : Op) (h : o.under env Op.chunking) : o.working env.taskID := by
  simp [Op.working, stage_of_under h]

theorem working_of_generating (o : Op) (h : o.under env Op.generating) : o.working env.taskID := by
  simp [Op.working, stage_of_under h]

end Under

section Rules

variable {A : Op → Prop} {ε α β : Type}

/-- Every operation of the executor or the handler meets `A`. -/
abbrev Performs (A : Op → Prop) (x : ExceptT ε (Prog Op Op.Resp) α) : Prop := x.run.Performs A

theorem performs_pure (a : α) : Performs A (pure a : ExceptT ε (Prog Op Op.Resp) α) := trivial

theorem performs_throw (e : ε) : Performs A (throw e : ExceptT ε (Prog Op Op.Resp) α) := trivial

theorem performs_bind {x : ExceptT ε (Prog Op Op.Resp) α} {f : α → ExceptT ε (Prog Op Op.Resp) β}
    (hx : Performs A x) (hf : ∀ a, Performs A (f a)) : Performs A (x >>= f) :=
  Prog.Performs.exceptT_bind hx hf

theorem performs_perform {o : Op} (ho : A o) :
    Performs A (ExceptT.lift (Prog.perform o) : ExceptT ε (Prog Op Op.Resp) o.Resp) :=
  ⟨ho, fun _ => trivial⟩

/-- The result of a program is looked at, and then passed on. -/
theorem performs_lift {x : ExceptT ε (Prog Op Op.Resp) α} (hx : Performs A x) :
    Performs A (ExceptT.lift x.run : ExceptT ε (Prog Op Op.Resp) (Except ε α)) :=
  Prog.Performs.bind hx fun _ => trivial

theorem performs_wrap {x : ExceptT ε (Prog Op Op.Resp) α} (hx : Performs A x) (f : ε → ε) :
    Performs A (tryCatch x fun e => throw (f e)) := by
  refine Prog.Performs.bind (p := x.run) hx ?_
  rintro (e | a) <;> exact trivial

theorem performs_ignore {o : Op} (ho : A o) : Performs A (ignore o) := ⟨ho, fun _ => trivial⟩

theorem performs_ignoreAll {os : List Op} (hos : ∀ o ∈ os, A o) : Performs A (ignoreAll os) := by
  induction os with
  | nil => exact performs_pure ()
  | cons o os ih =>
    unfold ignoreAll
    exact performs_bind (performs_ignore (hos o List.mem_cons_self))
      fun _ => ih fun o' ho' => hos o' (List.mem_cons_of_mem _ ho')

theorem performs_orThrow (r : Except Fail α) : Performs A (orThrow r) := by
  cases r <;> exact trivial

theorem progress_performs (env : TaskEnv) {stage : UUID → Op → Bool} {current total : Int}
    {msg : String} (h : ∀ step, stage env.taskID
      (.pg (.updateTaskProgress env.taskID step current total msg)) = true) (step : String) :
    Performs (·.under env stage) (env.progress step current total msg) := by
  have hLabel : (Op.pg (.updateTaskProgress env.taskID (effectiveProgressStep step env.stageLabel)
      current total msg)).reportsAs env.stageLabel = true := by
    show (env.stageLabel = "" ||
      effectiveProgressStep step env.stageLabel = env.stageLabel : Bool) = true
    unfold effectiveProgressStep
    split
    · simp
    · next hEmpty => simp [not_not.mp hEmpty]
  exact performs_ignore (Bool.and_eq_true_iff.mpr ⟨h _, hLabel⟩)

end Rules

section Stages

variable (cfg : AiCfg) (env : TaskEnv) (lessonID : UUID)

theorem clearStale_performs_of {A : Op → Prop} (hTranscript : A (.deleteTranscript lessonID))
    (hSegments : A (.deleteSegments lessonID))
    (hList : A (.pg (.listLessonTranscriptChunks lessonID cfg.lessonOpsLimit)))
    (hInteractions : A (.pg (.deleteLessonInteractionsByLesson lessonID)))
    (hChunks : A (.pg (.deleteLessonTranscriptChunks lessonID)))
    (hRecord : ∀ id, A (.deleteChunkTranscript id)) : Performs A (clearStale cfg lessonID) := by
  unfold clearStale
  refine performs_bind (performs_ignore hTranscript) fun _ =>
    performs_bind (performs_ignore hSegments) fun _ =>
    performs_bind (performs_perform hList) fun existing =>
    performs_bind (performs_ignore hInteractions) fun _ =>
    performs_bind (performs_ignore hChunks) fun _ => ?_
  cases existing with
  | error e => exact performs_pure ()
  | ok chunks =>
    apply performs_ignoreAll
    intro o ho
    obtain ⟨c, _, rfl⟩ := List.mem_map.mp ho
    exact hRecord c.id

theorem clearStale_performs : Performs (·.under env Op.transcribing) (clearStale cfg lessonID) :=
  clearStale_performs_of cfg lessonID rfl rfl rfl rfl rfl fun _ => rfl

theorem saveTranscription_performs (transcriptText : String) (segs : List Segment) :
    Performs (·.under env Op.transcribing) (saveTranscription lessonID transcriptText segs) := by
  have hSegments : Performs (·.under env Op.transcribing)
      (if segs ≠ [] then ignore (.saveSegments lessonID segs) else pure () : Exec Unit) := by
    split
    · exact performs_ignore rfl
    · exact performs_pure ()
  unfold saveTranscription
  dsimp only
  split
  · exact performs_bind (performs_ignore rfl) fun _ => hSegments
  · exact hSegments

theorem extract_performs (videoKey audioLang : String) :
    Performs (·.under env Op.transcribing) (extract cfg env lessonID videoKey audioLang) := by
  unfold extract
  refine performs_bind (clearStale_performs cfg env lessonID) fun _ =>
    performs_bind (performs_perform rfl) ?_
  rintro (e | ⟨transcriptText, segs⟩)
  · exact performs_throw e
  · dsimp only
    split
    · exact performs_throw _
    · exact performs_bind (progress_performs env (fun _ => decide_eq_true rfl) _)
        fun _ => saveTranscription_performs env lessonID transcriptText segs

theorem runExtract_performs (videoKey audioLang : String) :
    Performs (·.under env Op.transcribing) (runExtract cfg env lessonID videoKey audioLang) := by
  unfold runExtract
  refine performs_bind (performs_perform rfl) fun acquired => ?_
  cases acquired with
  | false => exact performs_throw _
  | true =>
    refine performs_bind (performs_lift (extract_performs cfg env lessonID videoKey audioLang))
      fun result => performs_bind (performs_ignore rfl) fun _ => ?_
    cases result with
    | error e => exact performs_throw e
    | ok _ => exact performs_pure ()

theorem transcriptRun_performs :
    Performs (·.under env Op.transcribing) (transcriptRun cfg env lessonID) := by
  unfold transcriptRun
  refine performs_bind (performs_perform rfl) ?_
  rintro (e | lesson)
  · exact performs_throw _
  · dsimp only
    split
    · exact performs_throw _
    · exact performs_bind (performs_ignore (by
        simp [Op.under, Op.reportsAs, Op.transcribing, Query.transcribing]))
        fun _ => runExtract_performs cfg env lessonID _ _

theorem saveChunkTranscripts_performs (transcriptText : String) (allSegs : List Segment)
    (saved : SavedChunks) :
    Performs (·.under env Op.chunking) (saveChunkTranscripts transcriptText allSegs saved) := by
  unfold saveChunkTranscripts
  refine performs_bind (performs_ignoreAll fun o ho => ?_) fun _ =>
    performs_ignoreAll fun o ho => ?_
  · obtain ⟨id, _, rfl⟩ := List.mem_map.mp ho
    rfl
  · obtain ⟨c, _, rfl⟩ := List.mem_map.mp ho
    rfl

theorem saveProposals_performs (transcriptText : String) (allSegs : List Segment)
    (chunks : List ChunkProposal) :
    Performs (·.under env Op.chunking)
      (saveProposals cfg env lessonID transcriptText allSegs chunks) := by
  unfold saveProposals
  refine performs_bind (progress_performs env (fun _ => decide_eq_true rfl) _) fun _ =>
    performs_bind (performs_perform rfl) ?_
  rintro (e | saved)
  · exact performs_throw _
  · exact saveChunkTranscripts_performs env transcriptText allSegs saved

theorem runChunk_performs : Performs (·.under env Op.chunking) (runChunk cfg env lessonID) := by
  unfold runChunk
  refine performs_bind (performs_perform rfl) fun transcriptText => ?_
  dsimp only
  split
  · exact performs_throw _
  · split
    · exact performs_throw _
    · refine performs_bind (performs_perform rfl) fun segments =>
        performs_bind (performs_perform rfl) fun allSegs =>
        performs_bind (performs_perform rfl) fun lesson =>
        performs_bind (progress_performs env (fun _ => decide_eq_true rfl) _) fun _ =>
        performs_bind (performs_perform rfl) ?_
      rintro (e | _ | ⟨ch, chunks⟩)
      · exact performs_throw e
      · exact performs_throw _
      · exact saveProposals_performs cfg env lessonID transcriptText allSegs (ch :: chunks)

theorem loadTargetChunks_performs (chunkID : Option UUID) :
    Performs (·.under env Op.generating) (loadTargetChunks cfg lessonID chunkID) := by
  unfold loadTargetChunks
  cases chunkID with
  | none =>
    refine performs_bind (performs_perform rfl) ?_
    rintro (e | chunks)
    · exact performs_throw _
    · exact performs_pure _
  | some chunkID =>
    refine performs_bind (performs_perform rfl) ?_
    rintro (e | c)
    · exact performs_throw _
    · dsimp only
      split
      · exact performs_throw _
      · exact performs_pure _

theorem chunksWithInteractions_performs (req : GenerateInteractionsRequest) :
    Performs (·.under env Op.generating) (chunksWithInteractions cfg lessonID req) := by
  unfold chunksWithInteractions
  split
  · refine performs_bind (performs_perform rfl) ?_
    rintro (e | rows) <;> exact performs_pure _
  · exact performs_pure _

variable (g : Generation)

theorem send_performs (step msg : String) (i : Nat) :
    Performs (·.under g.env Op.generating) (g.send step msg i) :=
  progress_performs g.env (fun _ => decide_eq_true rfl) _

theorem saveItems_performs (tally : Tally) (i : Nat) (chunk : LessonTranscriptChunk)
    (items : List GeneratedItem) :
    Performs (·.under g.env Op.generating) (saveItems g lessonID tally i chunk items) := by
  unfold saveItems
  refine performs_bind (performs_perform rfl) ?_
  rintro (e | saved)
  · refine performs_bind (performs_perform rfl) fun canceled => ?_
    cases canceled with
    | true => exact performs_pure none
    | false => exact performs_bind (send_performs g _ _ _) fun _ => performs_pure _
  · exact performs_bind (send_performs g _ _ _) fun _ => performs_pure _

theorem fillChunk_performs (tally : Tally) (i : Nat) (chunk : LessonTranscriptChunk) :
    Performs (·.under g.env Op.generating) (fillChunk g lessonID tally i chunk) := by
  unfold fillChunk
  refine performs_bind (performs_perform rfl) fun text => ?_
  split
  · exact performs_bind (send_performs g _ _ _) fun _ => performs_pure _
  · refine performs_bind (performs_perform rfl) ?_
    rintro (e | _ | ⟨item, items⟩)
    · refine performs_bind (performs_perform rfl) fun canceled => ?_
      cases canceled with
      | true => exact performs_pure none
      | false => exact performs_bind (send_performs g _ _ _) fun _ => performs_pure _
    · exact performs_pure _
    · exact saveItems_performs lessonID g tally i chunk (item :: items)

theorem generateChunk_performs (tally : Tally) (i : Nat) (chunk : LessonTranscriptChunk) :
    Performs (·.under g.env Op.generating) (generateChunk g lessonID tally i chunk) := by
  unfold generateChunk
  refine performs_bind (performs_perform rfl) fun canceled => ?_
  cases canceled with
  | true => exact performs_pure none
  | false =>
    split
    · exact performs_pure none
    · split
      · exact performs_bind (send_performs g _ _ _) fun _ => performs_pure _
      · exact fillChunk_performs lessonID g tally i chunk

theorem generateChunks_performs (i : Nat) (tally : Tally) (chunks : List LessonTranscriptChunk) :
    Performs (·.under g.env Op.generating) (generateChunks g lessonID i tally chunks) := by
  induction chunks generalizing i tally with
  | nil => exact performs_pure (some tally)
  | cons chunk chunks ih =>
    unfold generateChunks
    refine performs_bind (generateChunk_performs lessonID g tally i chunk) ?_
    rintro (_ | tally)
    · exact performs_pure none
    · exact ih (i + 1) tally

theorem hasExistingInteractions_performs (req : GenerateInteractionsRequest) :
    Performs (·.under env Op.generating) (hasExistingInteractions lessonID req) := by
  unfold hasExistingInteractions
  split
  · refine performs_bind (performs_perform rfl) ?_
    rintro (e | existing) <;> exact performs_pure _
  · exact performs_pure _

theorem concludeGeneration_performs (tally : Tally) :
    Performs (·.under g.env Op.generating) (concludeGeneration g lessonID tally) := by
  unfold concludeGeneration
  split
  · split
    · exact performs_throw _
    · refine performs_bind (hasExistingInteractions_performs g.env lessonID g.req)
        fun existing => ?_
      cases existing <;> exact send_performs g _ _ _
  · exact send_performs g _ _ _

theorem generationRun_performs (req : GenerateInteractionsRequest) :
    Performs (·.under env Op.generating) (generationRun cfg env lessonID req) := by
  unfold generationRun
  refine performs_bind (loadTargetChunks_performs cfg env lessonID req.chunkId) fun chunks => ?_
  dsimp only
  split
  · exact performs_throw _
  · refine performs_bind (performs_perform rfl) ?_
    rintro (e | lesson)
    · exact performs_throw _
    · refine performs_bind (chunksWithInteractions_performs cfg env lessonID req) fun existing =>
        performs_bind (generateChunks_performs lessonID ⟨env, _, _, _, _⟩ 0 {} chunks.val) ?_
      rintro (_ | tally)
      · exact performs_pure ()
      · exact concludeGeneration_performs lessonID ⟨env, lesson, req, existing, _⟩ tally

end Stages

section Executors

variable {s : AiSvc} {env : TaskEnv}

theorem reportStage_performs (step : String) (current : Int) (msg : String) :
    Performs (·.working env.taskID) (reportStage env step current msg) :=
  performs_ignore (by simp [Op.working, Op.transcribing, Query.transcribing])

theorem saveCheckpoint_performs (stage : PipelineStage) :
    Performs (·.working env.taskID) (saveCheckpoint s env stage) :=
  performs_ignore (by simp [Op.working])

theorem transcribeStage_performs (lessonID : UUID) :
    Performs (·.working env.taskID) (transcribeStage s env lessonID) := by
  have hRun := (transcriptRun_performs s.toAiCfg { env with stageLabel := "TRANSCRIBING" }
    lessonID).mono working_of_transcribing
  unfold transcribeStage
  exact performs_bind (reportStage_performs _ _ _) fun _ => performs_bind (performs_wrap hRun _)
    fun _ => saveCheckpoint_performs _

theorem chunkStage_performs (lessonID : UUID) :
    Performs (·.working env.taskID) (chunkStage s env lessonID) := by
  have hRun := (runChunk_performs s.toAiCfg { env with stageLabel := "CHUNKING" }
    lessonID).mono working_of_chunking
  unfold chunkStage
  exact performs_bind (reportStage_performs _ _ _) fun _ => performs_bind (performs_wrap hRun _)
    fun _ => saveCheckpoint_performs _

theorem generateStage_performs (lessonID : UUID) (input : TaskInput) (done : PipelineStage) :
    Performs (·.working env.taskID) (generateStage s env lessonID input done) := by
  have hRun := (generationRun_performs s.toAiCfg { env with stageLabel := "GENERATING" } lessonID
    ⟨none, shouldForceGen input.forceRegenerate done, input.options⟩).mono working_of_generating
  unfold generateStage
  exact performs_bind (reportStage_performs _ _ _) fun _ => performs_wrap hRun _

theorem pipelineStages_performs (lessonID : UUID) (input : TaskInput) (done : PipelineStage) :
    Performs (·.working env.taskID) (pipelineStages s env lessonID input done) := by
  unfold pipelineStages
  dsimp only
  split
  · refine performs_bind (transcribeStage_performs lessonID) fun _ => ?_
    split
    · exact performs_bind (chunkStage_performs lessonID) fun _ => generateStage_performs _ _ _
    · exact generateStage_performs _ _ _
  · split
    · exact performs_bind (chunkStage_performs lessonID) fun _ => generateStage_performs _ _ _
    · exact generateStage_performs _ _ _

/-- Every executor works, and then stamps its output. -/
theorem lookup_performs {execute : Exec Bytes} (h : lookup s env = some execute) :
    ∃ work output, execute = stamped work output ∧ Performs (·.working env.taskID) work := by
  unfold lookup at h
  split at h
  · cases h
    exact ⟨_, _, rfl, performs_bind (performs_orThrow _) fun lessonID =>
      (transcriptRun_performs s.toAiCfg env lessonID).mono working_of_transcribing⟩
  · cases h
    exact ⟨_, _, rfl, performs_bind (performs_orThrow _) fun lessonID =>
      (runChunk_performs s.toAiCfg env lessonID).mono working_of_chunking⟩
  · cases h
    exact ⟨_, _, rfl, performs_bind (performs_orThrow _) fun _ =>
      performs_bind (performs_orThrow _) fun lessonID =>
      (generationRun_performs s.toAiCfg env lessonID _).mono working_of_generating⟩
  · cases h
    exact ⟨_, _, rfl, performs_bind (performs_orThrow _) fun _ =>
      performs_bind (performs_orThrow _) fun lessonID => pipelineStages_performs lessonID _ _⟩
  · cases h

/-- The last operations of an executor: it looks at the clock, and it ends its task. -/
def Op.windsUp : Op → Bool
  | .unixNow | .pg (.markSucceeded ..) | .pg (.markFailed ..) => true
  | _ => false

/-- What a worker performs for a task that it has claimed. -/
def Op.forTask (taskID : UUID) (o : Op) : Bool := o.working taskID || o.windsUp

theorem finishTask_performs (workerID : UUID) (task : Task) (result : Except Fail Bytes) :
    (finishTask workerID task result).Performs (·.windsUp) := by
  unfold finishTask
  cases result with
  | error e =>
    dsimp only
    split
    · trivial
    · exact ⟨rfl, fun _ => trivial⟩
  | ok output => exact ⟨rfl, fun _ => trivial⟩

theorem runTask_performs (workerID : UUID) (task : Task) :
    (runTask s workerID task).Performs (·.forTask task.id) := by
  have hWorking : ∀ o : Op, o.working task.id → o.forTask task.id := by
    intro o ho
    simp [Op.forTask, ho]
  have hWindsUp : ∀ o : Op, o.windsUp → o.forTask task.id := by
    intro o ho
    simp [Op.forTask, ho]
  unfold runTask
  split
  · exact ⟨by simp [Op.forTask, Op.windsUp], fun _ => trivial⟩
  · next execute hLookup =>
    obtain ⟨work, output, rfl, hWork⟩ := lookup_performs hLookup
    refine Prog.Performs.bind (performs_bind (hWork.mono hWorking) fun _ => ?_) fun result =>
      (finishTask_performs workerID task result).mono hWindsUp
    exact performs_bind (performs_perform rfl) fun _ => performs_pure _

end Executors

/-! The requests other than those that delete the content of a lesson, the heartbeats and the
scanner. -/

def Query.byRequest : Query → Bool
  | .getLessonByID _ | .getOrgIDByLessonID _ | .lockLesson _ | .commit _ | .rollback _
  | .listLessonTranscriptChunks .. | .getLessonTranscriptChunk _ | .getTask _ | .getActiveTask ..
  | .countActiveTasksByUser _ | .listLatestTaskPerLesson _ | .insertTask .. | .cancelTask _
  | .heartbeatTask .. | .reapStaleProcessingBatch .. | .requeueOrphanedInqueuedBatch .. => true
  | _ => false

def Op.byRequest : Op → Bool
  | .pg q => q.byRequest
  | .statObject _ => true
  | _ => false

/-- The statements of the requests that delete the content of a lesson. -/
def Query.byEditor : Query → Bool
  | .getLessonByID _ | .getOrgIDByLessonID _ | .listLessonTranscriptChunks .. | .replaceVideo ..
  | .updateLessonVideo .. | .deleteLessonInteractionsByLesson _ | .deleteLessonTranscriptChunks _
  | .deleteLessonAttempts _ | .deleteLessonAnalysis _ | .deleteTasksForLesson _ => true
  | _ => false

def Op.byEditor : Op → Bool
  | .pg q => q.byEditor
  | .statObject _ | .deleteTranscript _ | .deleteSegments _ | .deleteChunkTranscript _ => true
  | _ => false

/-- The statements that only read. -/
def Query.reads : Query → Bool
  | .getLessonByID _ | .getOrgIDByLessonID _ | .listLessonTranscriptChunks ..
  | .getLessonTranscriptChunk _ | .getTask _ | .countActiveTasksByUser _
  | .listLatestTaskPerLesson _ => true
  | _ => false

def Op.reads : Op → Bool
  | .pg q => q.reads
  | .statObject _ => true
  | _ => false

/-- The check of the user's cap. -/
def Op.countsTasks : Op → Bool
  | .pg (.countActiveTasksByUser _) => true
  | _ => false

theorem byRequest_of_reads (o : Op) (h : o.reads) : o.byRequest := by
  cases o with
  | pg q => cases q <;> first | rfl | cases h
  | statObject => rfl
  | _ => cases h

abbrev Handler.Reads {α : Type} (x : Handler α) : Prop := Performs (·.reads) x

abbrev Handler.Serves {α : Type} (x : Handler α) : Prop := Performs (·.byRequest) x

abbrev Handler.Edits {α : Type} (x : Handler α) : Prop := Performs (·.byEditor) x

section Requests

variable {A : Op → Prop} {α : Type}

theorem performs_require (r : Except Error α) : Performs A (require r) := by
  cases r <;> exact trivial

theorem performs_orConnectDBError {q : Query} (hq : A (.pg q)) :
    Performs A (orConnectDBError q) := by
  refine performs_bind (performs_perform hq) ?_
  rintro (e | a) <;> exact trivial

theorem performs_orTaskDBError {q : Query} (hq : A (.pg q)) : Performs A (orTaskDBError q) := by
  refine performs_bind (performs_perform hq) ?_
  rintro (e | a) <;> exact trivial

theorem Handler.performs_ignore {o : Op} (ho : A o) : Performs A (Handler.ignore o) :=
  ⟨ho, fun _ => trivial⟩

theorem Handler.performs_ignoreAll {os : List Op} (hos : ∀ o ∈ os, A o) :
    Performs A (Handler.ignoreAll os) := by
  induction os with
  | nil => exact performs_pure ()
  | cons o os ih =>
    unfold Handler.ignoreAll
    exact performs_bind (Handler.performs_ignore (hos o List.mem_cons_self))
      fun _ => ih fun o' ho' => hos o' (List.mem_cons_of_mem _ ho')

variable {s : AiSvc} (caller : Except Error UUID)

theorem requestedChunk_reads (req : StartLessonTaskRequest) : (requestedChunk req).Reads := by
  unfold requestedChunk
  split
  · refine performs_bind (performs_orConnectDBError rfl) fun chunk => ?_
    split
    · exact performs_throw _
    · exact performs_pure _
  · exact performs_pure none

theorem authorizeAndLoadLesson_performs (hA : ∀ o, o.reads → o.countsTasks = false → A o)
    (lessonID : UUID) : Performs A (authorizeAndLoadLesson caller lessonID) := by
  unfold authorizeAndLoadLesson
  refine performs_bind (performs_orConnectDBError (hA _ rfl rfl)) fun _ =>
    performs_bind (performs_require caller) fun _ =>
    performs_bind (performs_orConnectDBError (hA _ rfl rfl)) fun lesson => ?_
  split
  · exact performs_throw _
  · exact performs_throw _
  · refine performs_bind (performs_perform (hA _ rfl rfl)) fun found => ?_
    cases found with
    | true => exact performs_pure _
    | false => exact performs_throw _

/-- The checks of the stages before a task read, and count no tasks. -/
theorem preflightLessonTask_performs (hA : ∀ o, o.reads → o.countsTasks = false → A o)
    (kind : LessonTaskKind) (lessonID : UUID) :
    Performs A (preflightLessonTask caller kind lessonID) := by
  have hVideo : Performs A (do let _ ← authorizeAndLoadLesson caller lessonID : Handler Unit) :=
    performs_bind (authorizeAndLoadLesson_performs caller hA lessonID) fun _ => performs_pure ()
  unfold preflightLessonTask
  cases kind with
  | unspecified => exact performs_throw _
  | extractTranscript => exact hVideo
  | runPipeline => exact hVideo
  | chunkTranscript =>
    refine performs_bind (performs_perform (hA _ rfl rfl)) ?_
    rintro (e | tasks)
    · exact performs_throw _
    · dsimp only
      split
      · exact performs_pure ()
      · exact performs_throw _
  | generateInteractions =>
    refine performs_bind (performs_orConnectDBError (hA _ rfl rfl)) fun chunks => ?_
    split
    · exact performs_throw _
    · exact performs_pure ()

theorem preflightLessonTask_reads (kind : LessonTaskKind) (lessonID : UUID) :
    (preflightLessonTask caller kind lessonID).Reads :=
  preflightLessonTask_performs caller (fun _ h _ => h) kind lessonID

theorem requireUnderCap_reads (userID : UUID) : (requireUnderCap s userID).Reads := by
  unfold requireUnderCap
  split
  · refine performs_bind (performs_orConnectDBError rfl) fun activeCount => ?_
    split
    · exact performs_throw _
    · exact performs_pure ()
  · exact performs_pure ()

theorem Handler.Reads.serves {α : Type} {x : Handler α} (h : x.Reads) : x.Serves :=
  h.mono byRequest_of_reads

theorem startInTx_serves (req : StartLessonTaskRequest) (taskType : String) (userID : UUID)
    (chunkID : Option UUID) : (startInTx s caller req taskType userID chunkID).Serves := by
  unfold startInTx
  refine performs_bind (performs_perform rfl) ?_
  rintro (e | activeTask)
  · exact performs_bind (requireUnderCap_reads userID).serves fun _ =>
      performs_bind (preflightLessonTask_reads caller req.kind req.lessonId).serves fun _ =>
      performs_bind (performs_require _) fun _ => performs_orConnectDBError rfl
  · refine performs_bind (performs_perform rfl) ?_
    rintro (e | _)
    · exact performs_throw _
    · exact performs_pure activeTask

theorem startLessonTask_serves (req : StartLessonTaskRequest) :
    (startLessonTask s caller req).Serves := by
  unfold startLessonTask
  refine performs_bind (performs_require _) fun taskType =>
    performs_bind (performs_orConnectDBError rfl) fun _ => performs_bind (performs_require caller)
    fun userID => performs_bind (requestedChunk_reads req).serves fun chunkID =>
    performs_bind (performs_orConnectDBError rfl) fun _ => ?_
  refine performs_bind (performs_lift (startInTx_serves caller req taskType userID chunkID)) ?_
  rintro (e | task)
  · exact performs_bind (Handler.performs_ignore rfl) fun _ => performs_throw e
  · exact performs_pure _

/-- A cancellation reads, and cancels the task. -/
theorem cancelLessonTask_performs {A : Op → Prop} (admin : Bool) (teacher : Except Error UUID)
    {taskId : UUID} (hReads : ∀ o, o.reads → A o) (hCancelTask : A (.pg (.cancelTask taskId))) :
    Performs A (cancelLessonTask admin teacher taskId) := by
  unfold cancelLessonTask
  refine performs_bind (performs_orTaskDBError (hReads _ rfl)) fun task => ?_
  have hCancel : Performs A (do
      orTaskDBError (.cancelTask taskId)
      return lessonTaskToProto (← orTaskDBError (.getTask taskId)) : Handler LessonTask) :=
    performs_bind (performs_orTaskDBError hCancelTask) fun _ =>
      performs_bind (performs_orTaskDBError (hReads _ rfl)) fun _ => performs_pure _
  dsimp only
  split
  · exact performs_bind (performs_orConnectDBError (hReads _ rfl)) fun _ =>
      performs_bind (performs_require teacher) fun _ => hCancel
  · exact hCancel

theorem deleteRecords_edits (lessonID : UUID) (chunkIDs : List UUID) :
    (deleteRecords lessonID chunkIDs).Edits := by
  unfold deleteRecords
  refine performs_bind (Handler.performs_ignore rfl) fun _ =>
    performs_bind (Handler.performs_ignore rfl) fun _ => Handler.performs_ignoreAll fun o ho => ?_
  obtain ⟨id, _, rfl⟩ := List.mem_map.mp ho
  rfl

theorem chunkIDsToClean_edits (existing : Lesson) : (chunkIDsToClean s existing).Edits := by
  unfold chunkIDsToClean
  split
  · refine performs_bind (performs_perform rfl) ?_
    rintro (e | chunks) <;> exact performs_pure _
  · exact performs_pure _

theorem updateLessonVideo_edits (req : UpdateLessonVideoRequest) :
    (updateLessonVideo s caller req).Edits := by
  unfold updateLessonVideo
  refine performs_bind (performs_orConnectDBError rfl) fun existing =>
    performs_bind (performs_require caller) fun _ => ?_
  split
  · exact performs_throw _
  · refine performs_bind (performs_perform rfl) fun found => ?_
    cases found with
    | false => exact performs_throw _
    | true =>
      refine performs_bind (chunkIDsToClean_edits existing) fun chunkIDs =>
        performs_bind (performs_orConnectDBError rfl) fun updated => ?_
      dsimp only
      split
      · exact performs_bind (deleteRecords_edits _ _) fun _ => performs_pure _
      · exact performs_pure _

theorem resetLessonContent_edits (lessonID : UUID) :
    (resetLessonContent caller lessonID).Edits := by
  unfold resetLessonContent
  exact performs_bind (performs_orConnectDBError rfl) fun _ =>
    performs_bind (performs_require caller) fun _ =>
    performs_bind (performs_orConnectDBError rfl) fun _ =>
    performs_bind (performs_orConnectDBError rfl) fun chunks =>
    performs_bind (performs_orConnectDBError rfl) fun _ =>
    performs_bind (performs_orConnectDBError rfl) fun _ =>
    performs_bind (performs_orConnectDBError rfl) fun _ =>
    performs_bind (performs_orConnectDBError rfl) fun _ =>
    performs_bind (performs_orConnectDBError rfl) fun _ =>
    performs_bind (performs_orConnectDBError rfl) fun _ => deleteRecords_edits _ _

end Requests

/-- The party deletes all tasks of a lesson and its content. -/
def Party.wipes : Party → Bool
  | .updateLessonVideo .. | .resetLessonContent .. => true
  | _ => false

/-- A party is a worker, or performs operations of requests only. -/
theorem Party.performs (s : AiSvc) (party : Party) :
    (∃ workerId allowedTypes, party = .worker workerId allowedTypes) ∨
      (party.program s).Performs (fun o => o.byRequest) ∨
      party.wipes = true ∧ (party.program s).Performs fun o => o.byEditor := by
  cases party with
  | worker workerId allowedTypes => exact .inl ⟨workerId, allowedTypes, rfl⟩
  | heartbeat | reapStaleProcessingBatch | requeueOrphanedInqueuedBatch =>
    exact .inr (.inl ⟨rfl, fun _ => trivial⟩)
  | startLessonTask caller req =>
    exact .inr (.inl (Prog.Performs.bind (startLessonTask_serves caller req) fun _ => trivial))
  | cancelLessonTask admin teacher taskId =>
    exact .inr (.inl (Prog.Performs.bind (cancelLessonTask_performs admin teacher
      byRequest_of_reads rfl) fun _ => trivial))
  | updateLessonVideo caller req =>
    exact .inr (.inr ⟨rfl, Prog.Performs.bind (updateLessonVideo_edits caller req)
      fun _ => trivial⟩)
  | resetLessonContent caller lessonId =>
    exact .inr (.inr ⟨rfl, Prog.Performs.bind (resetLessonContent_edits caller lessonId)
      fun _ => trivial⟩)

/-- Neither a worker nor a request that keeps the content deletes all tasks of a lesson. -/
theorem wipes_eq_none {o : Op} (h : (∃ id, o.forTask id) ∨ o.byRequest) : o.wipes = none := by
  cases o with
  | pg q => cases q <;> first | rfl | simp [Op.forTask, Op.windsUp, Op.working, Op.transcribing,
      Op.chunking, Op.generating, Query.transcribing, Query.chunking, Query.generating,
      Op.byRequest, Query.byRequest] at h
  | _ => rfl

theorem Party.performs_no_wipe (s : AiSvc) {party : Party} (hWipes : party.wipes = false) :
    (party.program s).Performs fun o => o.wipes = none := by
  obtain ⟨workerId, allowedTypes, rfl⟩ | hRequest | ⟨hEdits, _⟩ := party.performs s
  · have hClaim : (claimAndRun s workerId allowedTypes).Performs fun o => o.wipes = none := by
      refine ⟨rfl, ?_⟩
      rintro (e | task)
      · trivial
      · exact (runTask_performs workerId task).mono fun o ho => wipes_eq_none (.inl ⟨_, ho⟩)
    exact Prog.Performs.bind hClaim fun _ => trivial
  · exact hRequest.mono fun o ho => wipes_eq_none (.inr ho)
  · rw [hWipes] at hEdits
    cases hEdits

end Richter.Lessons
