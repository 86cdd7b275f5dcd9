import Richter.Lessons.Generation
import Richter.Lib.Scan

/-! The status of a lesson's analysis and what a response shows of its content
(`internal/svc/ai/analysis_read.go`). -/

namespace Richter.Lessons

open TaskQueue (InsertTaskParams Task TaskStatus Timestamptz)

/-- The enumeration `lesson_analysis_status`. -/
inductive LessonAnalysisStatus
  | pending
  | processing
  | transcriptExtracted
  | chunksReady
  | done
  | error
  deriving DecidableEq, Repr

structure LessonAnalysis where
  lessonId : UUID
  status : LessonAnalysisStatus
  errorMsg : Option String
  deriving DecidableEq, Repr

/-- The status of the last task of a type in the list. -/
def stateOf (taskType : String) (latest : List Task) : Option TaskStatus :=
  latest.foldl (fun state t => if t.taskType = taskType then some t.status else state) none

/-- The tasks that make a transcript. -/
def makesTranscript (t : Task) : Bool :=
  t.taskType = "transcribe" || t.taskType = "pipeline_run"

/-- `t` was created after `r`; ids decide between equal times. -/
def newerThan (t r : Task) : Bool :=
  decide (r.createdAt < t.createdAt) || (t.createdAt = r.createdAt && decide (r.id < t.id))

/-- The newest task that makes a transcript. -/
def newestTranscriptTask (latest : List Task) : Option Task :=
  latest.foldl (fun r t =>
    if makesTranscript t && r.all (newerThan t) then some t else r) none

def transcriptInvalidated (latest : List Task) : Bool :=
  match newestTranscriptTask latest with
  | none => false
  | some r =>
    r.status = .failed && (r.taskType = "transcribe" ||
      (!contains r.progressStep "CHUNKING" && !contains r.progressStep "GENERATING"))

/-- The status by the transcribe and chunk tasks. -/
def stageStatus (latest : List Task) : LessonAnalysisStatus :=
  let transcribeState := stateOf "transcribe" latest
  let chunkState := stateOf "chunk" latest
  if transcriptInvalidated latest then .error
  else if chunkState = some .succeeded then .chunksReady
  else if transcribeState = some .succeeded then .transcriptExtracted
  else if transcribeState = some .processing || chunkState = some .processing then .pending
  else if chunkState = some .failed then .error
  else .pending

def hasFailedUpstream (latest : List Task) : Bool :=
  transcriptInvalidated latest || stateOf "chunk" latest = some .failed

/-- A generation that has succeeded overrides the status. -/
def quizGenStatus (latest : List Task) : LessonAnalysisStatus :=
  if (latest.any fun t => t.taskType = "quiz_gen" && t.status = .succeeded) &&
    !hasFailedUpstream latest then .done
  else stageStatus latest

/-- A composite task overrides the status. -/
def pipelineStatus (latest : List Task) : LessonAnalysisStatus :=
  let status := quizGenStatus latest
  match stateOf "pipeline_run" latest with
  | some .succeeded => if !hasFailedUpstream latest then .done else status
  | some .processing | some .inqueued => if status = .pending then .processing else status
  | some .failed => if status = .pending then .error else status
  | _ => status

/-- The message of the first failed task that has one, by the order of the stages. -/
def failureMessage (latest : List Task) : Option String :=
  ["transcribe", "chunk", "pipeline_run"].findSome? fun taskType =>
    (latest.find? fun t => t.taskType = taskType && t.status = .failed &&
      t.errorMsg.getD "" ≠ "").map fun t => t.errorMsg.getD ""

def deriveAnalysisFromTasks (lessonID : UUID) (latest : List Task) : LessonAnalysis :=
  let status := pipelineStatus latest
  ⟨lessonID, status, if status = .error then failureMessage latest else none⟩

/-- `processingStaleAfter`, in microseconds. -/
def processingStaleAfter : Timestamptz := 90 * 1000000

/-- The status of a task for which the derived status stays. -/
def keepsStatus (now : Timestamptz) (t : Task) : Bool :=
  match t.status with
  | .failed | .inqueued => true
  | .processing => t.heartbeat.any fun heartbeat => decide (now - heartbeat < processingStaleAfter)
  | .succeeded | .cancelled => false

def applyArtifactFloor (now : Timestamptz) (status : LessonAnalysisStatus) (latest : List Task)
    (hasChunks hasInteractions : Bool) : LessonAnalysisStatus :=
  if latest.any (keepsStatus now) then status
  else if hasInteractions then .done
  else if hasChunks && (status = .pending || status = .transcriptExtracted) then .chunksReady
  else
    let status := if !hasInteractions && status = .done then .chunksReady else status
    if !hasChunks && (status = .chunksReady || status = .done) then .transcriptExtracted
    else status

/-- What `GetLessonAnalysis` reads, apart from the access checks: the clock, the lesson, the latest
task of each type, the row of `lesson_analyses`, the content, and the transcript with its
segments. -/
structure AnalysisReads where
  now : Timestamptz
  lesson : Lesson
  latest : List Task
  legacy : Except DbError LessonAnalysis
  interactions : Except DbError (List LessonInteraction)
  chunks : Except DbError (List LessonTranscriptChunk)
  transcript : String
  segments : List Segment

/-- What a response shows of a lesson. -/
structure AnalysisView where
  analysis : LessonAnalysis
  interactions : List LessonInteraction
  chunks : List LessonTranscriptChunk
  transcript : String
  segments : List Segment

/-- The analysis by the tasks; without tasks, that of the old table, or none for a lesson that has
no video. -/
def derivedAnalysis (r : AnalysisReads) : Except Error (Option LessonAnalysis) :=
  if r.latest = [] then
    match r.legacy with
    | .ok analysis => .ok (some analysis)
    | .error .noRows =>
      if r.lesson.videoStorageKey.getD "" ≠ "" then .ok (some ⟨r.lesson.id, .pending, none⟩)
      else .ok none
    | .error e => .error (connectDBError e)
  else .ok (some (deriveAnalysisFromTasks r.lesson.id r.latest))

def AnalysisReads.chunkRows (r : AnalysisReads) : List LessonTranscriptChunk :=
  match r.chunks with
  | .ok rows => rows
  | .error _ => []

def AnalysisReads.interactionRows (r : AnalysisReads) : List LessonInteraction :=
  match r.interactions with
  | .ok rows => rows
  | .error _ => []

/-- The status that is shown. -/
def shownStatus (r : AnalysisReads) (derived : LessonAnalysis) : LessonAnalysisStatus :=
  if r.latest = [] then derived.status
  else applyArtifactFloor r.now derived.status r.latest (r.chunkRows ≠ []) (r.interactionRows ≠ [])

/-- The rows of the content are suppressed. -/
def suppressed (r : AnalysisReads) (status : LessonAnalysisStatus) : Bool :=
  transcriptInvalidated r.latest || (r.latest = [] && status = .error)

/-- A transcript is shown with these statuses. -/
def LessonAnalysisStatus.hasTranscript : LessonAnalysisStatus → Bool
  | .transcriptExtracted | .chunksReady | .done | .processing => true
  | .pending | .error => false

/-- `GetLessonAnalysis`; the response may be empty. -/
def getLessonAnalysis (r : AnalysisReads) : Except Error (Option AnalysisView) := do
  match ← derivedAnalysis r with
  | none => return none
  | some derived =>
    let status := shownStatus r derived
    let blank := suppressed r status
    return some {
      analysis := { derived with status := status }
      interactions := if blank then [] else r.interactionRows
      chunks := if blank then [] else r.chunkRows
      transcript := if status.hasTranscript then r.transcript else ""
      segments := if status.hasTranscript then r.segments else [] }

section Status

variable {latest : List Task}

theorem exists_failed_of_invalidated (h : transcriptInvalidated latest = true) :
    ∃ t ∈ latest, t.status = .failed := by
  unfold transcriptInvalidated at h
  split at h
  · cases h
  · next r hNewest =>
    rw [Bool.and_eq_true, decide_eq_true_eq] at h
    obtain ⟨hMem, -⟩ | hNone :=
      @Lib.foldl_keepGreatest_mem _ makesTranscript newerThan _ _ _ hNewest
    · exact ⟨r, hMem, h.1⟩
    · cases hNone

theorem exists_of_stateOf {taskType : String} {status : TaskStatus}
    (h : stateOf taskType latest = some status) : ∃ t ∈ latest, t.status = status := by
  obtain ⟨t, hMem, -, hStatus⟩ | hNone :=
    Lib.foldl_keepLast_mem Task.taskType Task.status taskType h
  · exact ⟨t, hMem, hStatus⟩
  · cases hNone

/-- No override hides that the transcript is gone. -/
theorem pipelineStatus_of_invalidated (h : transcriptInvalidated latest = true) :
    pipelineStatus latest = .error := by
  have hStage : stageStatus latest = .error := by simp [stageStatus, h]
  have hUpstream : hasFailedUpstream latest = true := by simp [hasFailedUpstream, h]
  have hQuiz : quizGenStatus latest = .error := by simp [quizGenStatus, hUpstream, hStage]
  simp only [pipelineStatus, hQuiz, hUpstream]
  split <;> simp

/-- Without a failed task no rule makes an error. -/
theorem pipelineStatus_ne_error (hFailed : ∀ t ∈ latest, t.status ≠ .failed) :
    pipelineStatus latest ≠ .error := by
  have hValid : transcriptInvalidated latest = false := by
    rw [← Bool.not_eq_true]
    intro h
    obtain ⟨t, hMem, hStatus⟩ := exists_failed_of_invalidated h
    exact hFailed t hMem hStatus
  have hState : ∀ taskType, stateOf taskType latest ≠ some .failed := by
    intro taskType h
    obtain ⟨t, hMem, hStatus⟩ := exists_of_stateOf h
    exact hFailed t hMem hStatus
  have hStage : stageStatus latest ≠ .error := by
    unfold stageStatus
    simp only [hValid, hState, if_false, Bool.false_eq_true]
    repeat' split
    all_goals exact nofun
  have hQuiz : quizGenStatus latest ≠ .error := by
    unfold quizGenStatus
    split
    · exact nofun
    · exact hStage
  unfold pipelineStatus
  dsimp only
  split
  · split
    · exact nofun
    · exact hQuiz
  · split
    · exact nofun
    · exact hQuiz
  · split
    · exact nofun
    · exact hQuiz
  · next h => exact absurd h (hState _)
  · exact hQuiz

theorem applyArtifactFloor_of_failed {now : Timestamptz} {status : LessonAnalysisStatus}
    {hasChunks hasInteractions : Bool} (h : ∃ t ∈ latest, t.status = .failed) :
    applyArtifactFloor now status latest hasChunks hasInteractions = status := by
  obtain ⟨t, hMem, hStatus⟩ := h
  have hKeeps : latest.any (keepsStatus now) = true :=
    List.any_eq_true.mpr ⟨t, hMem, by simp [keepsStatus, hStatus]⟩
  simp [applyArtifactFloor, hKeeps]

/-- The floor and the ceiling make no error. -/
theorem applyArtifactFloor_ne_error {now : Timestamptz} {status : LessonAnalysisStatus}
    {hasChunks hasInteractions : Bool} (h : status ≠ .error) :
    applyArtifactFloor now status latest hasChunks hasInteractions ≠ .error := by
  unfold applyArtifactFloor
  dsimp only
  repeat' split
  all_goals first | exact h | exact nofun

theorem status_of_invalidated (now : Timestamptz) (lessonID : UUID)
    (hasChunks hasInteractions : Bool) (h : transcriptInvalidated latest = true) :
    applyArtifactFloor now (deriveAnalysisFromTasks lessonID latest).status latest hasChunks
      hasInteractions = .error := by
  rw [applyArtifactFloor_of_failed (exists_failed_of_invalidated h)]
  exact pipelineStatus_of_invalidated h

end Status

/-- What a response without content shows. -/
structure AnalysisView.Blank (view : AnalysisView) : Prop where
  status : view.analysis.status = .error
  interactions : view.interactions = []
  chunks : view.chunks = []
  transcript : view.transcript = ""
  segments : view.segments = []

theorem suppressed_is_error {r : AnalysisReads} {derived : LessonAnalysis}
    (hDerived : derivedAnalysis r = .ok (some derived))
    (h : suppressed r (shownStatus r derived) = true) : shownStatus r derived = .error := by
  unfold suppressed at h
  by_cases hNone : r.latest = []
  · simpa [hNone, transcriptInvalidated, newestTranscriptTask] using h
  · have hInvalidated : transcriptInvalidated r.latest = true := by simpa [hNone] using h
    rw [derivedAnalysis, if_neg hNone] at hDerived
    cases hDerived
    rw [shownStatus, if_neg hNone]
    exact status_of_invalidated r.now r.lesson.id _ _ hInvalidated

/-- A response whose content is suppressed shows an error and no content. -/
theorem getLessonAnalysis_blank {r : AnalysisReads} {view : AnalysisView}
    (h : getLessonAnalysis r = .ok (some view))
    (hSuppressed : suppressed r view.analysis.status = true) : view.Blank := by
  unfold getLessonAnalysis at h
  cases hDerived : derivedAnalysis r with
  | error e => simp [hDerived, bind, Except.bind] at h
  | ok derived? =>
    cases derived? with
    | none => simp [hDerived, bind, Except.bind, pure, Except.pure] at h
    | some derived =>
      simp only [hDerived, bind, Except.bind, pure, Except.pure, Except.ok.injEq,
        Option.some.injEq] at h
      subst h
      have hError := suppressed_is_error hDerived hSuppressed
      constructor <;> simp_all [LessonAnalysisStatus.hasTranscript]

/-- When the transcript is invalidated the status is an error, so that a response without content
shows no other; when it is not and no task has failed, the status is none. -/
theorem status_agrees_with_suppression (now : Timestamptz) (lessonID : UUID) (latest : List Task)
    (hasChunks hasInteractions : Bool) :
    (transcriptInvalidated latest = true →
      applyArtifactFloor now (deriveAnalysisFromTasks lessonID latest).status latest hasChunks
        hasInteractions = .error) ∧
    (transcriptInvalidated latest = false → (∀ t ∈ latest, t.status ≠ .failed) →
      applyArtifactFloor now (deriveAnalysisFromTasks lessonID latest).status latest hasChunks
        hasInteractions ≠ .error) ∧
    ∀ (r : AnalysisReads) (view : AnalysisView), getLessonAnalysis r = .ok (some view) →
      suppressed r view.analysis.status = true → view.Blank :=
  ⟨status_of_invalidated now lessonID hasChunks hasInteractions,
    fun _ hFailed => applyArtifactFloor_ne_error (pipelineStatus_ne_error hFailed),
    fun _ _ => getLessonAnalysis_blank⟩

/-- A chunk task that has succeeded, and a later transcription that has failed. -/
def failedAgain : List Task :=
  [{ (InsertTaskParams.row ⟨1, 10, none, "chunk", none, 20⟩ 1 0) with status := .succeeded },
    { (InsertTaskParams.row ⟨2, 10, none, "transcribe", none, 20⟩ 2 5) with status := .failed }]

theorem status_agrees_with_suppression_failedAgain :
    transcriptInvalidated failedAgain = true ∧
      applyArtifactFloor 9 (deriveAnalysisFromTasks 10 failedAgain).status failedAgain true true =
        .error :=
  ⟨by decide, (status_agrees_with_suppression 9 10 failedAgain true true).1 (by decide)⟩

end Richter.Lessons
