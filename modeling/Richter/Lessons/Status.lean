import Mathlib.Data.Prod.Lex
import Richter.Lessons.Analysis
import Richter.Lessons.Requests
import Richter.Lib.Scan

/-! The derived status over the latest task of each type: recovery, the message of an error, the
floor and the ceiling by the content, and the chunk step that the status offers
(`internal/svc/ai/analysis_read.go`, `internal/svc/ai/lesson_tasks.go`). -/

namespace Richter.Lessons

open Lib
open TaskQueue (InsertTaskParams Task TaskStatus TaskTable Timestamptz)

/-- At most one task of each type. -/
def OnePerType (latest : List Task) : Prop := (latest.map Task.taskType).Nodup

instance (latest : List Task) : Decidable (OnePerType latest) :=
  inferInstanceAs (Decidable (List.Nodup _))

/-- The status after the floor and the ceiling. -/
def finalStatus (now : Timestamptz) (lessonID : UUID) (latest : List Task)
    (hasChunks hasInteractions : Bool) : LessonAnalysisStatus :=
  applyArtifactFloor now (deriveAnalysisFromTasks lessonID latest).status latest hasChunks
    hasInteractions

/-- `ListLatestTaskPerLesson` returns such a list. -/
theorem onePerType_listLatestTaskPerLesson (lessonId : UUID) (t : TaskTable) :
    OnePerType (listLatestTaskPerLesson lessonId t) := by
  have hRows : (listLatestTaskPerLesson lessonId t).Nodup := t.nodup_rows.filter _
  refine List.Nodup.map_on (fun x hx y hy hType => ?_) hRows
  simp only [listLatestTaskPerLesson, List.mem_filter, Bool.and_eq_true, decide_eq_true_eq,
    List.all_eq_true] at hx hy
  obtain ⟨hxMem, hxLesson, hxLatest⟩ := hx
  obtain ⟨hyMem, hyLesson, hyLatest⟩ := hy
  have hxy := hxLatest y hyMem
  have hyx := hyLatest x hxMem
  simp only [hyLesson, hxLesson, hType, ne_eq, not_true, decide_false, Bool.false_or,
    Bool.or_eq_true, Bool.and_eq_true, decide_eq_true_eq] at hxy hyx
  refine t.eq_of_key hxMem hyMem ?_
  rcases hxy with hBefore | ⟨hTime, hId⟩
  · rcases hyx with hAfter | ⟨hTime, _⟩
    · exact absurd hBefore hAfter.not_gt
    · exact absurd hTime hBefore.ne'
  · rcases hyx with hAfter | ⟨_, hId'⟩
    · exact absurd hTime hAfter.ne'
    · exact le_antisymm hId' hId

section Latest

variable {latest : List Task}

theorem OnePerType.eq (h : OnePerType latest) {t u : Task} (ht : t ∈ latest) (hu : u ∈ latest)
    (hType : t.taskType = u.taskType) : t = u := List.inj_on_of_nodup_map h ht hu hType

theorem OnePerType.perm {latest' : List Task} (h : OnePerType latest)
    (hPerm : latest.Perm latest') : OnePerType latest' :=
  (hPerm.map Task.taskType).nodup_iff.mp h

/-- With one task of each type the state of a type is that of its task. -/
theorem stateOf_eq_some_iff (h : OnePerType latest) {taskType : String} {status : TaskStatus} :
    stateOf taskType latest = some status ↔
      ∃ t ∈ latest, t.taskType = taskType ∧ t.status = status := by
  have hLast := foldl_keepLast_eq_some_iff Task.taskType Task.status taskType h (b := none)
    (y := status)
  have hNone : ¬ ((none : Option TaskStatus) = some status ∧
      ∀ t ∈ latest, t.taskType ≠ taskType) := nofun
  rw [or_iff_left hNone] at hLast
  exact hLast

theorem stateOf_perm {latest' : List Task} (h : OnePerType latest) (hPerm : latest.Perm latest')
    (taskType : String) : stateOf taskType latest' = stateOf taskType latest := by
  ext status
  rw [stateOf_eq_some_iff h, stateOf_eq_some_iff (h.perm hPerm)]
  simp only [hPerm.mem_iff]

/-- The order of `created_at` and `id`. -/
def createdKey (t : Task) : Timestamptz ×ₗ UUID := toLex (t.createdAt, t.id)

theorem newerThan_iff {t r : Task} : newerThan t r = true ↔ createdKey r < createdKey t := by
  have hTime : t.createdAt = r.createdAt ↔ r.createdAt = t.createdAt := eq_comm
  simp [newerThan, createdKey, Prod.Lex.lt_iff, hTime]

theorem not_newerThan_iff {t r : Task} : newerThan t r = false ↔ createdKey t ≤ createdKey r := by
  rw [← Bool.not_eq_true, newerThan_iff, not_lt]

theorem newerThan_irrefl (t : Task) : newerThan t t = false := not_newerThan_iff.mpr le_rfl

theorem newerThan_asymm {t r : Task} (h : newerThan t r = true) : newerThan r t = false :=
  not_newerThan_iff.mpr (newerThan_iff.mp h).le

theorem not_newerThan_trans {t r q : Task} (h : newerThan t r = false)
    (h' : newerThan r q = false) : newerThan t q = false :=
  not_newerThan_iff.mpr ((not_newerThan_iff.mp h).trans (not_newerThan_iff.mp h'))

/-- The newest task that makes a transcript is in the list, and none is newer. -/
theorem newestTranscriptTask_spec {r : Task} (h : newestTranscriptTask latest = some r) :
    r ∈ latest ∧ makesTranscript r = true ∧
      ∀ u ∈ latest, makesTranscript u = true → newerThan u r = false := by
  have hScan : latest.foldl (keepGreatest makesTranscript newerThan) none = some r := h
  obtain ⟨hMax, _⟩ := foldl_keepGreatest_max newerThan_irrefl (fun _ _ => newerThan_asymm)
    (fun _ _ _ => not_newerThan_trans) hScan
  rcases foldl_keepGreatest_mem hScan with ⟨hMem, hMakes⟩ | hNone
  · exact ⟨hMem, hMakes, hMax⟩
  · cases hNone

/-- A task newer than all others that make a transcript is the newest. -/
theorem newestTranscriptTask_eq {t : Task} (ht : t ∈ latest) (hMakes : makesTranscript t = true)
    (hNewest : ∀ u ∈ latest, u = t ∨ newerThan t u = true) :
    newestTranscriptTask latest = some t := by
  have hSome : (newestTranscriptTask latest).isSome = true :=
    foldl_keepGreatest_isSome newerThan (.inl ⟨t, ht, hMakes⟩)
  obtain ⟨r, hr⟩ := Option.isSome_iff_exists.mp hSome
  obtain ⟨hMem, _, hMax⟩ := newestTranscriptTask_spec hr
  rcases hNewest r hMem with rfl | hNewer
  · exact hr
  · rw [hMax t ht hMakes] at hNewer
    cases hNewer

theorem stageStatus_ne_done : stageStatus latest ≠ .done := by
  unfold stageStatus
  dsimp only
  repeat' split
  all_goals exact nofun

end Latest

/-! ### Recovery -/

/-- `t` is a composite task that has succeeded, newer than all others in the list. -/
structure Recovered (latest : List Task) (t : Task) : Prop where
  mem : t ∈ latest
  taskType : t.taskType = "pipeline_run"
  status : t.status = .succeeded
  newest : ∀ u ∈ latest, u = t ∨ newerThan t u = true

section Recovery

variable {latest : List Task} {t : Task}

theorem Recovered.not_invalidated (h : Recovered latest t) :
    transcriptInvalidated latest = false := by
  have hMakes : makesTranscript t = true := by simp [makesTranscript, h.taskType]
  simp [transcriptInvalidated, newestTranscriptTask_eq h.mem hMakes h.newest, h.status]

/-- A chunk task that has failed hides the composite task. -/
theorem Recovered.pipelineStatus_eq (hOne : OnePerType latest) (h : Recovered latest t) :
    pipelineStatus latest =
      if stateOf "chunk" latest = some .failed then stageStatus latest else .done := by
  have hPipeline : stateOf "pipeline_run" latest = some .succeeded :=
    (stateOf_eq_some_iff hOne).mpr ⟨t, h.mem, h.taskType, h.status⟩
  by_cases hChunk : stateOf "chunk" latest = some .failed
  · simp [pipelineStatus, quizGenStatus, hasFailedUpstream, h.not_invalidated, hPipeline, hChunk]
  · simp [pipelineStatus, hasFailedUpstream, h.not_invalidated, hPipeline, hChunk]

/-- What has been derived as done stays so with interactions. -/
theorem applyArtifactFloor_done (now : Timestamptz) (hasChunks : Bool) :
    applyArtifactFloor now .done latest hasChunks true = .done := by
  simp [applyArtifactFloor]

end Recovery

/-- A lesson that a newer composite task has rebuilt shows as done if and only if no old chunk task
remains that has failed. -/
theorem recovered_done_iff (now : Timestamptz) (lessonID : UUID) {latest : List Task} {t : Task}
    (hOne : OnePerType latest) (h : Recovered latest t) :
    finalStatus now lessonID latest true true = .done ↔
      ∀ u ∈ latest, u.taskType = "chunk" → u.status ≠ .failed := by
  have hFailed : stateOf "chunk" latest = some .failed ↔
      ∃ u ∈ latest, u.taskType = "chunk" ∧ u.status = .failed := stateOf_eq_some_iff hOne
  have hDerived : (deriveAnalysisFromTasks lessonID latest).status =
      if stateOf "chunk" latest = some .failed then stageStatus latest else .done :=
    h.pipelineStatus_eq hOne
  unfold finalStatus
  rw [hDerived]
  by_cases hChunk : stateOf "chunk" latest = some .failed
  · obtain ⟨u, hMem, hType, hStatus⟩ := hFailed.mp hChunk
    rw [if_pos hChunk, applyArtifactFloor_of_failed ⟨u, hMem, hStatus⟩]
    refine iff_of_false stageStatus_ne_done fun hNone => ?_
    exact hNone u hMem hType hStatus
  · rw [if_neg hChunk]
    refine iff_of_true (applyArtifactFloor_done now true) fun u hMem hType hStatus => ?_
    exact hChunk (hFailed.mpr ⟨u, hMem, hType, hStatus⟩)

/-- A task of a lesson with its outcome. -/
def finished (id : UUID) (taskType : String) (status : TaskStatus) (errorMsg : Option String)
    (createdAt : Timestamptz) : Task :=
  { (InsertTaskParams.row ⟨id, 10, none, taskType, none, 20⟩ id createdAt) with
    status := status
    errorMsg := errorMsg }

theorem recovered_done_iff_transcribe :
    finalStatus 9 10 [finished 2 "pipeline_run" .succeeded none 5,
      finished 1 "transcribe" .failed (some "no speech") 3] true true = .done :=
  (recovered_done_iff 9 10 (by decide) ⟨List.mem_cons_self, rfl, rfl, by decide⟩).mpr (by decide)

/-- A chunk task has failed, and a later composite task has rebuilt the lesson. -/
def rebuilt : List Task :=
  [finished 1 "chunk" .failed (some "timeout") 3, finished 2 "pipeline_run" .succeeded none 5]

theorem rebuilt_not_done : OnePerType rebuilt ∧
    Recovered rebuilt (finished 2 "pipeline_run" .succeeded none 5) ∧
    (∀ u ∈ rebuilt, u.status ≠ .inqueued ∧ u.status ≠ .processing) ∧
    finalStatus 9 10 rebuilt true true = .error :=
  ⟨by decide, ⟨by decide, rfl, rfl, by decide⟩, by decide, by decide⟩

/-! ### The message of an error -/

/-- The message of a task, empty when it has none. -/
def messageOf (t : Task) : String := t.errorMsg.getD ""

/-- `t` is a task of the type that has failed with a message. -/
def FailedWithMessage (taskType : String) (t : Task) : Prop :=
  t.taskType = taskType ∧ t.status = .failed ∧ messageOf t ≠ ""

/-- The message of the failed task of a type. -/
def failedMessage (taskType : String) (latest : List Task) : Option String :=
  (latest.find? fun t => t.taskType = taskType && t.status = .failed &&
    t.errorMsg.getD "" ≠ "").map fun t => t.errorMsg.getD ""

section Message

variable {latest : List Task} {taskType message : String}

theorem failureMessage_eq : failureMessage latest =
    ["transcribe", "chunk", "pipeline_run"].findSome? fun taskType =>
      failedMessage taskType latest := rfl

theorem failedMessage_eq_none_iff :
    failedMessage taskType latest = none ↔ ∀ t ∈ latest, ¬FailedWithMessage taskType t := by
  simp [failedMessage, FailedWithMessage, messageOf]

theorem failedMessage_of_mem (hOne : OnePerType latest) {t : Task} (ht : t ∈ latest)
    (hFailed : FailedWithMessage taskType t) :
    failedMessage taskType latest = some (messageOf t) := by
  cases hMessage : failedMessage taskType latest with
  | none => exact absurd hFailed (failedMessage_eq_none_iff.mp hMessage t ht)
  | some message =>
    obtain ⟨u, hFind, hEq⟩ := Option.map_eq_some_iff.mp hMessage
    have hMeets := List.find?_some hFind
    simp only [Bool.and_eq_true, decide_eq_true_eq] at hMeets
    have hSame : u = t :=
      hOne.eq (List.mem_of_find?_eq_some hFind) ht (hMeets.1.1.trans hFailed.1.symm)
    rw [← hEq, hSame]
    rfl

/-- The task that invalidates the transcript has failed. -/
theorem newest_failed (hInvalidated : transcriptInvalidated latest = true) {r : Task}
    (hNewest : newestTranscriptTask latest = some r) : r.status = .failed := by
  unfold transcriptInvalidated at hInvalidated
  rw [hNewest] at hInvalidated
  dsimp only at hInvalidated
  rw [Bool.and_eq_true, decide_eq_true_eq] at hInvalidated
  exact hInvalidated.1

end Message

/-- The message that is returned is that of the task that invalidated the transcript if and only if
no failed transcription has another one, and no failed chunk task either unless a failed
transcription has this one. -/
theorem errorMsg_of_newest_iff (lessonID : UUID) {latest : List Task} {r : Task}
    (hOne : OnePerType latest) (hInvalidated : transcriptInvalidated latest = true)
    (hNewest : newestTranscriptTask latest = some r) (hMessage : messageOf r ≠ "") :
    (deriveAnalysisFromTasks lessonID latest).errorMsg = some (messageOf r) ↔
      (∀ t ∈ latest, FailedWithMessage "transcribe" t → messageOf t = messageOf r) ∧
        ((∃ t ∈ latest, FailedWithMessage "transcribe" t) ∨
          ∀ t ∈ latest, FailedWithMessage "chunk" t → messageOf t = messageOf r) := by
  have hError : pipelineStatus latest = .error := pipelineStatus_of_invalidated hInvalidated
  have hReturned : (deriveAnalysisFromTasks lessonID latest).errorMsg = failureMessage latest := by
    simp [deriveAnalysisFromTasks, hError]
  obtain ⟨hMem, hMakes, _⟩ := newestTranscriptTask_spec hNewest
  have hFailed : r.status = .failed := newest_failed hInvalidated hNewest
  rw [hReturned, failureMessage_eq]
  by_cases hTranscribe : ∃ t ∈ latest, FailedWithMessage "transcribe" t
  · obtain ⟨t, ht, hWith⟩ := hTranscribe
    have hChosen := failedMessage_of_mem hOne ht hWith
    simp only [List.findSome?_cons, hChosen, Option.some.injEq]
    refine ⟨fun hEq => ⟨fun u hu hWith' => ?_, .inl ⟨t, ht, hWith⟩⟩, fun h => h.1 t ht hWith⟩
    rw [hOne.eq hu ht (hWith'.1.trans hWith.1.symm)]
    exact hEq
  · have hNone : ∀ t ∈ latest, ¬FailedWithMessage "transcribe" t := fun t ht hWith =>
      hTranscribe ⟨t, ht, hWith⟩
    -- The task that invalidated the transcript is then a composite one.
    have hPipeline : FailedWithMessage "pipeline_run" r := by
      refine ⟨?_, hFailed, hMessage⟩
      have hType : r.taskType = "transcribe" ∨ r.taskType = "pipeline_run" := by
        simpa [makesTranscript] using hMakes
      exact hType.resolve_left fun hType => hNone r hMem ⟨hType, hFailed, hMessage⟩
    have hLast := failedMessage_of_mem hOne hMem hPipeline
    simp only [List.findSome?_cons, failedMessage_eq_none_iff.mpr hNone, hLast, hTranscribe,
      false_or]
    by_cases hChunk : ∃ t ∈ latest, FailedWithMessage "chunk" t
    · obtain ⟨t, ht, hWith⟩ := hChunk
      have hChosen := failedMessage_of_mem hOne ht hWith
      simp only [hChosen, Option.some.injEq]
      refine ⟨fun hEq => ⟨fun u hu hWith' => absurd hWith' (hNone u hu), fun u hu hWith' => ?_⟩,
        fun h => h.2 t ht hWith⟩
      rw [hOne.eq hu ht (hWith'.1.trans hWith.1.symm)]
      exact hEq
    · have hNoChunk : ∀ t ∈ latest, ¬FailedWithMessage "chunk" t := fun t ht hWith =>
        hChunk ⟨t, ht, hWith⟩
      simp only [failedMessage_eq_none_iff.mpr hNoChunk, true_iff]
      exact ⟨fun u hu hWith => absurd hWith (hNone u hu),
        fun u hu hWith => absurd hWith (hNoChunk u hu)⟩

theorem errorMsg_of_newest_iff_transcribe :
    (deriveAnalysisFromTasks 10 [finished 2 "transcribe" .failed (some "no speech") 5]).errorMsg =
      some "no speech" :=
  (errorMsg_of_newest_iff (r := finished 2 "transcribe" .failed (some "no speech") 5) 10 (by decide)
    (by decide) (by decide) (by decide)).mpr (by
      refine ⟨fun t ht _ => ?_, .inl ⟨_, List.mem_cons_self, rfl, rfl, by decide⟩⟩
      rw [List.mem_singleton.mp ht])

/-- A transcription has failed, and a later composite task while it transcribed. -/
def failedTwice : List Task :=
  [finished 1 "transcribe" .failed (some "no speech") 3,
    finished 2 "pipeline_run" .failed (some "video not found") 5]

theorem failedTwice_shows_older : OnePerType failedTwice ∧
    transcriptInvalidated failedTwice = true ∧
    newestTranscriptTask failedTwice =
      some (finished 2 "pipeline_run" .failed (some "video not found") 5) ∧
    (deriveAnalysisFromTasks 10 failedTwice).errorMsg = some "no speech" := by decide

/-! ### The floor and the ceiling -/

/-- No task has failed or waits, and those that run have no worker that reports any more. -/
def Settled (now : Timestamptz) (latest : List Task) : Prop :=
  ∀ t ∈ latest, t.status ≠ .failed ∧ t.status ≠ .inqueued ∧ (t.status = .processing →
    ∀ heartbeat, t.heartbeat = some heartbeat → processingStaleAfter ≤ now - heartbeat)

/-- The task has failed, waits, or runs with a worker that reports. -/
def Unsettled (now : Timestamptz) (t : Task) : Prop :=
  t.status = .failed ∨ t.status = .inqueued ∨ (t.status = .processing ∧
    ∃ heartbeat, t.heartbeat = some heartbeat ∧ now - heartbeat < processingStaleAfter)

section Floor

variable {latest : List Task} {now : Timestamptz} {status : LessonAnalysisStatus}
  {hasChunks hasInteractions : Bool}

theorem keepsStatus_iff {t : Task} : keepsStatus now t = true ↔ Unsettled now t := by
  cases hStatus : t.status <;> cases hHeartbeat : t.heartbeat <;>
    simp [keepsStatus, Unsettled, hStatus, hHeartbeat]

theorem settled_iff : Settled now latest ↔ ∀ t ∈ latest, ¬Unsettled now t := by
  unfold Settled Unsettled
  refine forall₂_congr fun t _ => ?_
  simp only [not_or, not_and, not_exists, not_lt, ne_eq]

theorem any_keepsStatus_iff : latest.any (keepsStatus now) = true ↔ ¬Settled now latest := by
  simp only [List.any_eq_true, keepsStatus_iff, settled_iff, not_forall, not_not, exists_prop]

theorem applyArtifactFloor_of_not_settled (h : ¬Settled now latest) :
    applyArtifactFloor now status latest hasChunks hasInteractions = status := by
  simp [applyArtifactFloor, any_keepsStatus_iff.mpr h]

/-- What the content makes of a status. -/
def byContent (status : LessonAnalysisStatus) (hasChunks hasInteractions : Bool) :
    LessonAnalysisStatus :=
  if hasInteractions then .done
  else if hasChunks then
    match status with
    | .pending | .transcriptExtracted | .chunksReady | .done => .chunksReady
    | .processing => .processing
    | .error => .error
  else
    match status with
    | .transcriptExtracted | .chunksReady | .done => .transcriptExtracted
    | .pending => .pending
    | .processing => .processing
    | .error => .error

theorem applyArtifactFloor_of_settled (h : Settled now latest) :
    applyArtifactFloor now status latest hasChunks hasInteractions =
      byContent status hasChunks hasInteractions := by
  have hAny : latest.any (keepsStatus now) = false := by
    rw [← Bool.not_eq_true, any_keepsStatus_iff, not_not]
    exact h
  cases hasInteractions <;> cases hasChunks <;> cases status <;>
    simp [applyArtifactFloor, byContent, hAny]

theorem byContent_eq_done_iff : byContent status hasChunks hasInteractions = .done ↔
    hasInteractions = true := by
  cases status <;> cases hasChunks <;> cases hasInteractions <;> simp [byContent]

theorem byContent_eq_chunksReady (h : byContent status hasChunks hasInteractions = .chunksReady) :
    hasChunks = true ∧ hasInteractions = false := by
  revert h
  cases status <;> cases hasChunks <;> cases hasInteractions <;> simp [byContent]

theorem byContent_idem : byContent (byContent status hasChunks hasInteractions) hasChunks
    hasInteractions = byContent status hasChunks hasInteractions := by
  cases status <;> cases hasChunks <;> cases hasInteractions <;> rfl

theorem Settled.perm {latest' : List Task} (h : Settled now latest)
    (hPerm : latest.Perm latest') : Settled now latest' :=
  fun t ht => h t (hPerm.mem_iff.mpr ht)

theorem Settled.not_invalidated (h : Settled now latest) :
    transcriptInvalidated latest = false := by
  rw [← Bool.not_eq_true]
  intro hInvalidated
  obtain ⟨t, ht, hFailed⟩ := exists_failed_of_invalidated hInvalidated
  exact (h t ht).1 hFailed

/-- The derived status does not depend on the order of the tasks. -/
theorem pipelineStatus_perm {latest' : List Task} (hOne : OnePerType latest)
    (hPerm : latest.Perm latest')
    (hInvalidated : transcriptInvalidated latest' = transcriptInvalidated latest) :
    pipelineStatus latest' = pipelineStatus latest := by
  have hState := stateOf_perm hOne hPerm
  have hAny : ∀ p, latest'.any p = latest.any p := fun p => hPerm.symm.any_eq
  have hUpstream : hasFailedUpstream latest' = hasFailedUpstream latest := by
    simp only [hasFailedUpstream, hInvalidated, hState]
  have hStage : stageStatus latest' = stageStatus latest := by
    simp only [stageStatus, hInvalidated, hState]
  have hQuiz : quizGenStatus latest' = quizGenStatus latest := by
    simp only [quizGenStatus, hAny, hUpstream, hStage]
  simp only [pipelineStatus, hQuiz, hState, hUpstream]

theorem finalStatus_perm {latest' : List Task} (lessonID : UUID) (hOne : OnePerType latest)
    (h : Settled now latest) (hPerm : latest.Perm latest') :
    finalStatus now lessonID latest' hasChunks hasInteractions =
      finalStatus now lessonID latest hasChunks hasInteractions := by
  have hInvalidated : transcriptInvalidated latest' = transcriptInvalidated latest := by
    rw [h.not_invalidated, (h.perm hPerm).not_invalidated]
  unfold finalStatus
  rw [applyArtifactFloor_of_settled h, applyArtifactFloor_of_settled (h.perm hPerm)]
  show byContent (pipelineStatus latest') _ _ = byContent (pipelineStatus latest) _ _
  rw [pipelineStatus_perm hOne hPerm hInvalidated]

end Floor

/-- Over settled tasks the content has the last word, in one application and in any order; else the
status stays as it is. -/
theorem artifactFloor_and_ceiling (now : Timestamptz) (latest : List Task)
    (hasChunks hasInteractions : Bool) :
    (Settled now latest →
      (∀ status,
        (applyArtifactFloor now status latest hasChunks hasInteractions = .done ↔
          hasInteractions = true) ∧
        (applyArtifactFloor now status latest hasChunks hasInteractions = .chunksReady →
          hasChunks = true ∧ hasInteractions = false) ∧
        applyArtifactFloor now (applyArtifactFloor now status latest hasChunks hasInteractions)
            latest hasChunks hasInteractions =
          applyArtifactFloor now status latest hasChunks hasInteractions) ∧
      (OnePerType latest → ∀ lessonID latest', latest.Perm latest' →
        finalStatus now lessonID latest' hasChunks hasInteractions =
          finalStatus now lessonID latest hasChunks hasInteractions)) ∧
    ((∃ t ∈ latest, Unsettled now t) →
      ∀ status, applyArtifactFloor now status latest hasChunks hasInteractions = status) := by
  constructor
  · intro hSettled
    refine ⟨fun status => ?_, fun hOne lessonID latest' hPerm =>
      finalStatus_perm lessonID hOne hSettled hPerm⟩
    simp only [applyArtifactFloor_of_settled hSettled]
    exact ⟨byContent_eq_done_iff, byContent_eq_chunksReady, byContent_idem⟩
  · intro ⟨t, ht, hUnsettled⟩ status
    exact applyArtifactFloor_of_not_settled fun hSettled => settled_iff.mp hSettled t ht hUnsettled

/-- A chunk task that was cancelled. -/
def cancelledChunk : List Task := [finished 1 "chunk" .cancelled none 3]

theorem cancelledChunk_settled : Settled 9 cancelledChunk := by
  intro t ht
  rw [show t = finished 1 "chunk" .cancelled none 3 from List.mem_singleton.mp ht]
  exact ⟨nofun, nofun, nofun⟩

theorem artifactFloor_and_ceiling_cancelledChunk :
    applyArtifactFloor 9 .pending cancelledChunk true false ≠ .done ∧
      applyArtifactFloor 9 .error [finished 1 "chunk" .failed none 3] true true = .error := by
  have hFloor := (artifactFloor_and_ceiling 9 cancelledChunk true false).1 cancelledChunk_settled
  refine ⟨fun h => ?_, ?_⟩
  · exact absurd ((hFloor.1 .pending).1.mp h) (by decide)
  · exact (artifactFloor_and_ceiling 9 [finished 1 "chunk" .failed none 3] true true).2
      ⟨_, List.mem_cons_self, .inl rfl⟩ .error

/-! ### The chunk step -/

/-- A transcription in the list has succeeded. -/
def Transcribed (latest : List Task) : Prop :=
  ∃ t ∈ latest, t.taskType = "transcribe" ∧ t.status = .succeeded

/-- A task after the transcription, or a composite one, has succeeded. -/
def DownstreamSucceeded (latest : List Task) : Prop :=
  ∃ t ∈ latest, (t.taskType = "chunk" ∨ t.taskType = "quiz_gen" ∨ t.taskType = "pipeline_run") ∧
    t.status = .succeeded

/-- No override makes the status of a transcription. -/
theorem stageStatus_of_pipelineStatus {latest : List Task}
    (h : pipelineStatus latest = .transcriptExtracted) :
    stageStatus latest = .transcriptExtracted := by
  have hQuiz : quizGenStatus latest = .transcriptExtracted := by
    unfold pipelineStatus at h
    generalize quizGenStatus latest = status at h ⊢
    dsimp only at h
    repeat' split at h
    all_goals first | exact h | cases h
  unfold quizGenStatus at hQuiz
  split at hQuiz
  · cases hQuiz
  · exact hQuiz

/-- The status of the tasks alone rests on a transcription. -/
theorem transcribed_of_pipelineStatus {latest : List Task} (hOne : OnePerType latest)
    (h : pipelineStatus latest = .transcriptExtracted) : Transcribed latest := by
  have hStage := stageStatus_of_pipelineStatus h
  have hState : stateOf "transcribe" latest = some .succeeded := by
    unfold stageStatus at hStage
    dsimp only at hStage
    repeat' split at hStage
    all_goals first | assumption | cases hStage
  exact (stateOf_eq_some_iff hOne).mp hState

/-- What the ceiling lowers rests on a task after the transcription, or a composite one. -/
theorem downstream_iff {now : Timestamptz} {latest : List Task} (hOne : OnePerType latest)
    (hSettled : Settled now latest) :
    DownstreamSucceeded latest ↔
      pipelineStatus latest = .chunksReady ∨ pipelineStatus latest = .done := by
  have hChunk : stateOf "chunk" latest = some .succeeded ↔
      ∃ t ∈ latest, t.taskType = "chunk" ∧ t.status = .succeeded := stateOf_eq_some_iff hOne
  have hPipeline : stateOf "pipeline_run" latest = some .succeeded ↔
      ∃ t ∈ latest, t.taskType = "pipeline_run" ∧ t.status = .succeeded := stateOf_eq_some_iff hOne
  have hQuiz : (latest.any fun t => t.taskType = "quiz_gen" && t.status = .succeeded) = true ↔
      ∃ t ∈ latest, t.taskType = "quiz_gen" ∧ t.status = .succeeded := by simp
  have hParts : DownstreamSucceeded latest ↔ stateOf "chunk" latest = some .succeeded ∨
      (latest.any fun t => t.taskType = "quiz_gen" && t.status = .succeeded) = true ∨
        stateOf "pipeline_run" latest = some .succeeded := by
    rw [hChunk, hPipeline, hQuiz]
    simp only [DownstreamSucceeded, or_and_right, and_or_left, exists_or]
  have hFailed : ∀ taskType, stateOf taskType latest ≠ some .failed := by
    intro taskType h
    obtain ⟨t, ht, _, hStatus⟩ := (stateOf_eq_some_iff hOne).mp h
    exact (hSettled t ht).1 hStatus
  rw [hParts]
  generalize hAny : (latest.any fun t => t.taskType = "quiz_gen" && t.status = .succeeded) = quiz
  have hUpstream : hasFailedUpstream latest = false := by
    simp [hasFailedUpstream, hSettled.not_invalidated, hFailed]
  have hStage : stageStatus latest = .chunksReady ↔ stateOf "chunk" latest = some .succeeded := by
    unfold stageStatus
    simp only [hSettled.not_invalidated, hFailed, if_false, Bool.false_eq_true]
    by_cases h : stateOf "chunk" latest = some .succeeded
    · simp [h]
    · simp only [h, if_false, iff_false]
      repeat' split
      all_goals simp
  have hQuizStatus : quizGenStatus latest = if quiz then .done else stageStatus latest := by
    simp [quizGenStatus, hUpstream, hAny]
  have hNotDone : stageStatus latest ≠ .done := stageStatus_ne_done
  rw [← hStage]
  simp only [pipelineStatus, hQuizStatus, hUpstream]
  generalize stageStatus latest = stage at hNotDone ⊢
  generalize stateOf "pipeline_run" latest = state
  cases quiz
  · cases state with
    | none => simp [hNotDone]
    | some state =>
      -- A pending status gives way to one that tells of no later task either.
      have hInstead : ∀ instead : LessonAnalysisStatus, instead ≠ .chunksReady → instead ≠ .done →
          ((if stage = .pending then instead else stage) = .chunksReady ∨
            (if stage = .pending then instead else stage) = .done ↔ stage = .chunksReady) := by
        intro instead hReady hDone
        by_cases h : stage = .pending <;> simp [h, hReady, hDone, hNotDone]
      cases state <;> simp [hNotDone, hInstead]
  · cases state with
    | none => simp
    | some state => cases state <;> simp

section Chunk

variable {latest : List Task} {now : Timestamptz} {lessonID : UUID}
  {hasChunks hasInteractions : Bool}

/-- The check before a chunk task looks for a transcription only. -/
theorem preflight_chunk_iff {ω : Type} (answer : ω → (o : Op) → o.Resp) (w : Nat → ω)
    (caller : Except Error UUID)
    (hAnswer : answer (w 0) (.pg (.listLatestTaskPerLesson lessonID)) = .ok latest) :
    (preflightLessonTask caller .chunkTranscript lessonID).run.eval answer w = .ok () ↔
      Transcribed latest := by
  show Prog.eval answer (ExceptT.run
    (match answer (w 0) (.pg (.listLatestTaskPerLesson lessonID)) with
    | .error e => throw (.connect .internal ("preflight chunk: " ++ e.text))
    | .ok tasks =>
      if tasks.any fun t => t.taskType = "transcribe" && t.status = .succeeded then pure ()
      else throw (.connect .failedPrecondition
        "no transcript found — run Step 2 (extract transcript) first") : Handler Unit)) _ = _ ↔ _
  rw [hAnswer]
  have hAny : (latest.any fun t => t.taskType = "transcribe" && t.status = .succeeded) = true ↔
      Transcribed latest := by simp [Transcribed]
  dsimp only
  rw [← hAny]
  split
  · next h => exact iff_of_true rfl h
  · next h => exact iff_of_false nofun h

/-- The ceiling lowers the status of a settled lesson without content. -/
theorem finalStatus_eq_transcriptExtracted (hOne : OnePerType latest)
    (h : finalStatus now lessonID latest hasChunks hasInteractions = .transcriptExtracted) :
    Transcribed latest ∨ (Settled now latest ∧ hasChunks = false ∧ hasInteractions = false ∧
      DownstreamSucceeded latest) := by
  by_cases hSettled : Settled now latest
  · have hContent : byContent (pipelineStatus latest) hasChunks hasInteractions =
        .transcriptExtracted := (applyArtifactFloor_of_settled hSettled).symm.trans h
    rw [downstream_iff hOne hSettled]
    cases hStatus : pipelineStatus latest with
    | transcriptExtracted => exact .inl (transcribed_of_pipelineStatus hOne hStatus)
    | pending | processing | error =>
      cases hasChunks <;> cases hasInteractions <;> simp [byContent, hStatus] at hContent
    | chunksReady | done =>
      cases hasChunks <;> cases hasInteractions <;>
        simp [byContent, hStatus, hSettled] at hContent ⊢
  · have hKept : pipelineStatus latest = .transcriptExtracted :=
      (applyArtifactFloor_of_not_settled hSettled).symm.trans h
    exact .inl (transcribed_of_pipelineStatus hOne hKept)

end Chunk

/-- A lesson that shows as transcribed can be chunked, if and only if a transcription of the list
has succeeded or the status is not lowered from a later stage: content remains, a task has failed,
waits or runs, or no later or composite task has succeeded. -/
theorem chunkable_iff {ω : Type} (answer : ω → (o : Op) → o.Resp) (w : Nat → ω)
    (caller : Except Error UUID) (now : Timestamptz) (lessonID : UUID) {latest : List Task}
    (hasChunks hasInteractions : Bool) (hOne : OnePerType latest)
    (hAnswer : answer (w 0) (.pg (.listLatestTaskPerLesson lessonID)) = .ok latest) :
    (finalStatus now lessonID latest hasChunks hasInteractions = .transcriptExtracted →
        (preflightLessonTask caller .chunkTranscript lessonID).run.eval answer w = .ok ()) ↔
      Transcribed latest ∨ hasChunks = true ∨ hasInteractions = true ∨
        (∃ t ∈ latest, Unsettled now t) ∨ ¬DownstreamSucceeded latest := by
  rw [preflight_chunk_iff answer w caller hAnswer]
  constructor
  · intro h
    by_contra hNot
    simp only [not_or, not_not, Bool.not_eq_true, not_exists, not_and] at hNot
    obtain ⟨hTranscribed, rfl, rfl, hUnsettled, hDownstream⟩ := hNot
    have hSettled : Settled now latest := settled_iff.mpr hUnsettled
    refine hTranscribed (h ?_)
    show applyArtifactFloor now (pipelineStatus latest) latest false false = .transcriptExtracted
    rw [applyArtifactFloor_of_settled hSettled]
    rcases (downstream_iff hOne hSettled).mp hDownstream with hStatus | hStatus <;>
      simp [byContent, hStatus]
  · intro h hFinal
    rcases finalStatus_eq_transcriptExtracted hOne hFinal with
      hTranscribed | ⟨hSettled, rfl, rfl, hDownstream⟩
    · exact hTranscribed
    · have hNone : ¬∃ t ∈ latest, Unsettled now t := fun ⟨t, ht, hUnsettled⟩ =>
        settled_iff.mp hSettled t ht hUnsettled
      simpa [hNone, hDownstream] using h

/-- Answers of a database whose other statements fail, with the tasks `latest`. -/
def answerTasks (latest : List Task) (_ : Unit) : (o : Op) → o.Resp
  | .pg (.listLatestTaskPerLesson _) => .ok latest
  | .pg _ => .error .noRows
  | .loadTranscript _ | .fetchChunkTranscript _ => ""
  | .loadSegments _ => []
  | .transcription .. | .chunk .. | .generateForChunk .. => .error (errorf "")
  | .tryAcquire .. | .ctxErr | .statObject _ => false
  | .unixNow => 0
  | .saveTranscript .. | .deleteTranscript _ | .saveSegments .. | .deleteSegments _
  | .saveChunkTranscript .. | .deleteChunkTranscript _ | .release .. => ()

theorem chunkable_iff_transcribed :
    (preflightLessonTask (.ok 20) .chunkTranscript 10).run.eval
      (answerTasks [finished 1 "transcribe" .succeeded none 3]) (fun _ => ()) = .ok () :=
  (chunkable_iff (answerTasks [finished 1 "transcribe" .succeeded none 3]) (fun _ => ()) (.ok 20) 9
    10 false false (by decide) rfl).mpr (.inl ⟨_, List.mem_cons_self, rfl, rfl⟩) (by decide)

/-- A lesson that a composite task has made, and whose chunks were removed. -/
def quickCreated : List Task := [finished 1 "pipeline_run" .succeeded none 3]

theorem quickCreated_not_chunkable : OnePerType quickCreated ∧
    finalStatus 9 10 quickCreated false false = .transcriptExtracted ∧
    (preflightLessonTask (.ok 20) .chunkTranscript 10).run.eval (answerTasks quickCreated)
      (fun _ => ()) = .error (.connect .failedPrecondition
        "no transcript found — run Step 2 (extract transcript) first") :=
  ⟨by decide, by decide, rfl⟩

end Richter.Lessons
