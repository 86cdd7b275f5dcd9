import Mathlib.Data.List.Infix
import Mathlib.Data.Finset.Erase
import Richter.Lessons.Requests

/-! The tracker of the analysis view, `analysis-task-tracker.ts`: what it makes of a list of the
lesson's tasks.  Of the view the model has the phases of the three stages and the ids that the
tracker keeps; the data that it loads, the timings and the step of the workflow are left out. -/

namespace Richter.Dashboard

open Lib
open Lessons (LessonTask LessonTaskKind LessonTaskStatus)

/-- `String.prototype.includes`. -/
def includes (s sub : String) : Bool := decide (sub.toList <:+: s.toList)

/-- `a || b` for strings. -/
def orText (a b : String) : String := if a = "" then b else a

inductive AnalysisProgressStep
  | downloading
  | uploading
  | analyzing
  | saving
  deriving DecidableEq, Repr

def analysisStepFromTask (task : LessonTask) : Option AnalysisProgressStep :=
  if includes task.progressStep "DOWNLOADING" then some .downloading
  else if includes task.progressStep "UPLOADING" then some .uploading
  else if includes task.progressStep "ANALYZING" then some .analyzing
  else if includes task.progressStep "SAVING" then some .saving
  else none

inductive StreamRunState
  | idle
  | starting
  | syncing
  | running (currentStep : Option AnalysisProgressStep) (coarse : Bool)
  | stale (currentStep : Option AnalysisProgressStep)
  | done
  | error (failedAt : Option AnalysisProgressStep) (message : String)
  deriving DecidableEq, Repr

inductive GenRunState
  | idle
  | starting
  | running (message : String) (chunkIndex totalChunks : Int)
  | stale (message : String) (chunkIndex totalChunks : Int)
  | done
  | error (message : String)
  deriving DecidableEq, Repr

def StreamRunState.isRunning : StreamRunState → Bool
  | .running _ _ => true
  | _ => false

def GenRunState.isRunning : GenRunState → Bool
  | .running _ _ _ => true
  | _ => false

/-- A `getLessonAnalysis` that the tracker has sent and whose answer sets `genState`. -/
inductive Fetch
  | afterExtract
  | afterGenerate
  | afterPipeline
  deriving DecidableEq, Repr

/-- `genState` after the answer; `found` is whether it has an analysis. -/
def Fetch.genState (found : Bool) (prev : GenRunState) : Fetch → GenRunState
  | .afterExtract => if found then .idle else prev
  | .afterGenerate | .afterPipeline => .done

structure View where
  extractState : StreamRunState
  chunkState : StreamRunState
  genState : GenRunState
  startedTaskIds : Finset UUID
  completedTaskIds : Finset UUID
  taskStatusById : UUID → Option LessonTaskStatus
  failedAttributed : Finset UUID
  fetches : List Fetch

/-- `isLessonTaskActive`. -/
def isLessonTaskActive (task : LessonTask) : Bool :=
  task.status = .queued || task.status = .running

def generating (task : LessonTask) : GenRunState :=
  .running (orText task.message "Đang tạo bài tập...") (max 0 (task.progressCurrent - 1))
    task.progressTotal

/-- A task that is seen active. -/
def trackActive (task : LessonTask) (v : View) : View :=
  match task.kind with
  | .extractTranscript =>
      { v with extractState := .running (analysisStepFromTask task) false }
  | .chunkTranscript => { v with chunkState := .running (analysisStepFromTask task) false }
  | .generateInteractions =>
      if task.chunkId.isNone then { v with genState := generating task } else v
  | .runPipeline =>
      if includes task.progressStep "GENERATING" then
        { v with extractState := .done, chunkState := .done, genState := generating task }
      else if includes task.progressStep "CHUNKING" then
        { v with extractState := .done, chunkState := .running none true, genState := .idle }
      else
        { v with extractState := .running none true, chunkState := .idle, genState := .idle }
  | .unspecified => v

def attributed (task : LessonTask) : StreamRunState → StreamRunState
  | .error none message =>
      .error (some ((analysisStepFromTask task).getD .analyzing))
        (orText task.errorMsg (orText task.message message))
  | prev => prev

/-- The reload attribution of a failure. -/
def attributeFailure (task : LessonTask) (v : View) : View :=
  if task.status = .failed ∧ task.id ∉ v.failedAttributed then
    let v := { v with failedAttributed := insert task.id v.failedAttributed }
    match task.kind with
    | .extractTranscript => { v with extractState := attributed task v.extractState }
    | .chunkTranscript => { v with chunkState := attributed task v.chunkState }
    | .runPipeline =>
        if includes task.progressStep "CHUNKING" then
          { v with chunkState := attributed task v.chunkState }
        else if !includes task.progressStep "GENERATING" then
          { v with extractState := attributed task v.extractState }
        else v
    | .generateInteractions | .unspecified => v
  else v

/-- A task that has left its active phase with success. -/
def trackSucceeded (task : LessonTask) (v : View) : View :=
  match task.kind with
  | .extractTranscript => { v with extractState := .done, fetches := v.fetches ++ [.afterExtract] }
  | .chunkTranscript => { v with chunkState := .done }
  | .generateInteractions =>
      if task.chunkId.isNone then { v with fetches := v.fetches ++ [.afterGenerate] } else v
  | .runPipeline =>
      { v with
        extractState := .done
        chunkState := .done
        fetches := v.fetches ++ [.afterPipeline] }
  | .unspecified => v

/-- A task that has left its active phase with a failure or by a cancellation. -/
def trackFailed (task : LessonTask) (v : View) : View :=
  let msg := orText task.errorMsg (orText task.message "Tác vụ thất bại.")
  let failure := StreamRunState.error (some ((analysisStepFromTask task).getD .analyzing)) msg
  match task.kind with
  | .extractTranscript => { v with extractState := failure }
  | .chunkTranscript => { v with chunkState := failure }
  | .generateInteractions => if task.chunkId.isNone then { v with genState := .error msg } else v
  | .runPipeline =>
      if includes task.progressStep "GENERATING" then { v with genState := .error msg }
      else if includes task.progressStep "CHUNKING" then { v with chunkState := failure }
      else { v with extractState := failure }
  | .unspecified => v

/-- The body of the tracker's loop. -/
def trackTask (v : View) (task : LessonTask) : View :=
  let previousStatus := v.taskStatusById task.id
  let v := { v with
    taskStatusById := Function.update v.taskStatusById task.id (some task.status) }
  if isLessonTaskActive task then trackActive task v
  else
    let v := attributeFailure task v
    let transitionedFromActive := previousStatus = some .queued ∨
      previousStatus = some .running ∨ task.id ∈ v.startedTaskIds
    if transitionedFromActive ∧ task.id ∉ v.completedTaskIds then
      let v := { v with
        completedTaskIds := insert task.id v.completedTaskIds
        startedTaskIds := v.startedTaskIds.erase task.id }
      if task.status = .succeeded then trackSucceeded task v else trackFailed task v
    else v

/-- The effect of `useAnalysisTaskTracker` on a list of tasks. -/
def trackTasks (lessonTasks : List LessonTask) (v : View) : View := lessonTasks.foldl trackTask v

/-- A task that the tracker holds stale. -/
def markStale (task : LessonTask) (v : View) : View :=
  let stale : StreamRunState → StreamRunState
    | .running _ _ | .syncing => .stale (analysisStepFromTask task)
    | prev => prev
  match task.kind with
  | .extractTranscript => { v with extractState := stale v.extractState }
  | .chunkTranscript => { v with chunkState := stale v.chunkState }
  | .generateInteractions =>
      match task.chunkId, v.genState with
      | none, .running _ chunkIndex totalChunks =>
          { v with genState := .stale "Tiến trình bị treo." chunkIndex totalChunks }
      | _, _ => v
  | .runPipeline | .unspecified => v

inductive Phase
  | extract
  | chunk
  | gen
  deriving DecidableEq, Repr

def View.isRunning (v : View) : Phase → Bool
  | .extract => v.extractState.isRunning
  | .chunk => v.chunkState.isRunning
  | .gen => v.genState.isRunning

/-- The phase that a task keeps running while it is seen active. -/
def phaseOf (task : LessonTask) : Option Phase :=
  match task.kind with
  | .extractTranscript => some .extract
  | .chunkTranscript => some .chunk
  | .generateInteractions => if task.chunkId.isNone then some .gen else none
  | .runPipeline =>
      some (if includes task.progressStep "GENERATING" then .gen
        else if includes task.progressStep "CHUNKING" then .chunk else .extract)
  | .unspecified => none

/-- The task sets the phase running. -/
def Keeps (x : Phase) (task : LessonTask) : Prop :=
  isLessonTaskActive task = true ∧ phaseOf task = some x

/-- The task tells what has become of a phase that it kept running: a pipeline that has failed
tells it of its last stage only. -/
def Accounts (x : Phase) (task : LessonTask) : Prop :=
  phaseOf task = some x ∨
    task.kind = .runPipeline ∧ task.status ≠ .failed ∧ task.status ≠ .canceled

instance (x : Phase) (task : LessonTask) : Decidable (Keeps x task) :=
  inferInstanceAs (Decidable (_ ∧ _))

instance (x : Phase) (task : LessonTask) : Decidable (Accounts x task) :=
  inferInstanceAs (Decidable (_ ∨ _))

/-- The tracker waits for the task to end. -/
def View.Awaits (v : View) (id : UUID) : Prop :=
  id ∉ v.completedTaskIds ∧
    (v.taskStatusById id = some .queued ∨ v.taskStatusById id = some .running)

/-- The answer to a request of the tracker will take the generation out of running. -/
def View.Fetching (v : View) : Prop := ∃ f ∈ v.fetches, f ≠ .afterExtract

section Tracking

variable {v : View} {t : LessonTask} {x : Phase} {id : UUID}

theorem isLessonTaskActive_iff :
    isLessonTaskActive t = true ↔ t.status = .queued ∨ t.status = .running := by
  simp [isLessonTaskActive]

theorem isLessonTaskActive_eq_false_iff : isLessonTaskActive t = false ↔
    t.status = .succeeded ∨ t.status = .failed ∨ t.status = .canceled := by
  cases h : t.status <;> simp [isLessonTaskActive, h]

theorem isRunning_attributed (s : StreamRunState) : (attributed t s).isRunning = s.isRunning := by
  unfold attributed
  split <;> rfl

/-- The attribution of a failure changes nothing that the phases depend on. -/
theorem attributeFailure_eq (t : LessonTask) (v : View) : ∃ extract chunk attributed,
    attributeFailure t v = { v with
      extractState := extract
      chunkState := chunk
      failedAttributed := attributed } ∧
    extract.isRunning = v.extractState.isRunning ∧ chunk.isRunning = v.chunkState.isRunning := by
  unfold attributeFailure
  split
  · cases t.kind with
    | extractTranscript => exact ⟨_, _, _, rfl, isRunning_attributed _, rfl⟩
    | chunkTranscript => exact ⟨_, _, _, rfl, rfl, isRunning_attributed _⟩
    | runPipeline =>
      simp only
      split
      · exact ⟨_, _, _, rfl, rfl, isRunning_attributed _⟩
      · split
        · exact ⟨_, _, _, rfl, isRunning_attributed _, rfl⟩
        · exact ⟨_, _, _, rfl, rfl, rfl⟩
    | generateInteractions => exact ⟨_, _, _, rfl, rfl, rfl⟩
    | unspecified => exact ⟨_, _, _, rfl, rfl, rfl⟩
  · exact ⟨_, _, _, rfl, rfl, rfl⟩

/-- A task that is seen active sets its own phase running and, a pipeline, the others at rest. -/
theorem isRunning_trackActive (hActive : isLessonTaskActive t = true)
    (h : (trackActive t v).isRunning x = true) :
    Keeps x t ∨ v.isRunning x = true ∧ ¬Accounts x t := by
  cases hKind : t.kind with
  | extractTranscript =>
    cases x <;> simp_all [trackActive, View.isRunning, Keeps, Accounts, phaseOf]
  | chunkTranscript =>
    cases x <;> simp_all [trackActive, View.isRunning, Keeps, Accounts, phaseOf]
  | generateInteractions =>
    by_cases hChunk : t.chunkId.isNone = true <;> cases x <;>
      simp_all [trackActive, View.isRunning, Keeps, Accounts, phaseOf]
  | runPipeline =>
    by_cases hGen : includes t.progressStep "GENERATING" = true
    · cases x <;> simp_all [trackActive, View.isRunning, Keeps, phaseOf, StreamRunState.isRunning]
    · by_cases hChunk : includes t.progressStep "CHUNKING" = true <;> cases x <;>
        simp_all [trackActive, View.isRunning, Keeps, phaseOf, StreamRunState.isRunning,
          GenRunState.isRunning]
  | unspecified => simp_all [trackActive, Accounts, phaseOf]

/-- A success takes the phases that the task accounts for out of running, the generation with the
answer to a request. -/
theorem isRunning_trackSucceeded (h : (trackSucceeded t v).isRunning x = true) :
    v.isRunning x = true ∧
      (Accounts x t → x = .gen ∧ (trackSucceeded t v).Fetching) := by
  cases hKind : t.kind with
  | extractTranscript =>
    cases x <;> simp_all [trackSucceeded, View.isRunning, Accounts, phaseOf,
      StreamRunState.isRunning]
  | chunkTranscript =>
    cases x <;> simp_all [trackSucceeded, View.isRunning, Accounts, phaseOf,
      StreamRunState.isRunning]
  | generateInteractions =>
    by_cases hChunk : t.chunkId.isNone = true <;> cases x <;>
      simp_all [trackSucceeded, View.isRunning, Accounts, phaseOf, View.Fetching]
  | runPipeline =>
    cases x <;> simp_all [trackSucceeded, View.isRunning, View.Fetching, StreamRunState.isRunning]
  | unspecified => simp_all [trackSucceeded, Accounts, phaseOf]

/-- A failure takes the phases that the task accounts for out of running. -/
theorem isRunning_trackFailed (hFailed : t.status = .failed ∨ t.status = .canceled)
    (h : (trackFailed t v).isRunning x = true) : v.isRunning x = true ∧ ¬Accounts x t := by
  have hOnly : Accounts x t ↔ phaseOf t = some x := by
    rcases hFailed with hFailed | hFailed <;> simp [Accounts, hFailed]
  rw [hOnly]
  cases hKind : t.kind with
  | extractTranscript =>
    cases x <;> simp_all [trackFailed, View.isRunning, phaseOf, StreamRunState.isRunning]
  | chunkTranscript =>
    cases x <;> simp_all [trackFailed, View.isRunning, phaseOf, StreamRunState.isRunning]
  | generateInteractions =>
    by_cases hChunk : t.chunkId.isNone = true <;> cases x <;>
      simp_all [trackFailed, View.isRunning, phaseOf, GenRunState.isRunning]
  | runPipeline =>
    by_cases hGen : includes t.progressStep "GENERATING" = true
    · cases x <;> simp_all [trackFailed, View.isRunning, phaseOf, GenRunState.isRunning]
    · by_cases hChunk : includes t.progressStep "CHUNKING" = true <;> cases x <;>
        simp_all [trackFailed, View.isRunning, phaseOf, StreamRunState.isRunning]
  | unspecified => simp_all [trackFailed, phaseOf]

/-- What setting the phases leaves alone, and adds to. -/
structure SameIds (v v' : View) : Prop where
  completedTaskIds : v'.completedTaskIds = v.completedTaskIds
  taskStatusById : v'.taskStatusById = v.taskStatusById
  startedTaskIds : v'.startedTaskIds = v.startedTaskIds
  fetches : v.fetches ⊆ v'.fetches

theorem sameIds_trackActive (t : LessonTask) (v : View) : SameIds v (trackActive t v) := by
  unfold trackActive
  split
  · exact ⟨rfl, rfl, rfl, List.Subset.refl _⟩
  · exact ⟨rfl, rfl, rfl, List.Subset.refl _⟩
  · split <;> exact ⟨rfl, rfl, rfl, List.Subset.refl _⟩
  · split
    · exact ⟨rfl, rfl, rfl, List.Subset.refl _⟩
    · split <;> exact ⟨rfl, rfl, rfl, List.Subset.refl _⟩
  · exact ⟨rfl, rfl, rfl, List.Subset.refl _⟩

theorem sameIds_trackSucceeded (t : LessonTask) (v : View) : SameIds v (trackSucceeded t v) := by
  unfold trackSucceeded
  split
  · exact ⟨rfl, rfl, rfl, List.subset_append_left ..⟩
  · exact ⟨rfl, rfl, rfl, List.Subset.refl _⟩
  · split
    · exact ⟨rfl, rfl, rfl, List.subset_append_left ..⟩
    · exact ⟨rfl, rfl, rfl, List.Subset.refl _⟩
  · exact ⟨rfl, rfl, rfl, List.subset_append_left ..⟩
  · exact ⟨rfl, rfl, rfl, List.Subset.refl _⟩

theorem sameIds_trackFailed (t : LessonTask) (v : View) : SameIds v (trackFailed t v) := by
  unfold trackFailed
  cases t.kind with
  | generateInteractions =>
    simp only
    split <;> exact ⟨rfl, rfl, rfl, List.Subset.refl _⟩
  | runPipeline =>
    simp only
    split
    · exact ⟨rfl, rfl, rfl, List.Subset.refl _⟩
    · split <;> exact ⟨rfl, rfl, rfl, List.Subset.refl _⟩
  | _ => exact ⟨rfl, rfl, rfl, List.Subset.refl _⟩

theorem sameIds_markStale (t : LessonTask) (v : View) : SameIds v (markStale t v) := by
  unfold markStale
  cases t.kind with
  | generateInteractions =>
    simp only
    split <;> exact ⟨rfl, rfl, rfl, List.Subset.refl _⟩
  | _ => exact ⟨rfl, rfl, rfl, List.Subset.refl _⟩

/-- What the loop does with one task. -/
inductive Tracked (v : View) (t : LessonTask) : View → Prop
  /-- It is active: its phase is set. -/
  | active (v' : View) : isLessonTaskActive t = true →
      (∀ x, v'.isRunning x = true → Keeps x t ∨ v.isRunning x = true ∧ ¬Accounts x t) →
      v'.completedTaskIds = v.completedTaskIds → v.fetches ⊆ v'.fetches → Tracked v t v'
  /-- It is at its end, and nobody waits for that. -/
  | passed (v' : View) : isLessonTaskActive t = false → ¬v.Awaits t.id →
      (∀ x, v'.isRunning x = v.isRunning x) →
      v'.completedTaskIds = v.completedTaskIds → v.fetches ⊆ v'.fetches → Tracked v t v'
  /-- It is at its end, which sets the phases that it accounts for at rest. -/
  | ended (v' : View) : isLessonTaskActive t = false →
      (∀ x, v'.isRunning x = true → v.isRunning x = true ∧
        (Accounts x t → x = .gen ∧ v'.Fetching)) →
      v'.completedTaskIds = insert t.id v.completedTaskIds → v.fetches ⊆ v'.fetches →
      Tracked v t v'

theorem isRunning_congr {v v' : View}
    (hExtract : v'.extractState.isRunning = v.extractState.isRunning)
    (hChunk : v'.chunkState.isRunning = v.chunkState.isRunning)
    (hGen : v'.genState.isRunning = v.genState.isRunning) (x : Phase) :
    v'.isRunning x = v.isRunning x := by
  cases x with
  | extract => exact hExtract
  | chunk => exact hChunk
  | gen => exact hGen

theorem trackTask_cases (v : View) (t : LessonTask) : Tracked v t (trackTask v t) := by
  unfold trackTask
  generalize Function.update v.taskStatusById t.id (some t.status) = taskStatusById
  cases hActive : isLessonTaskActive t with
  | true =>
    rw [if_pos rfl]
    have hIds := sameIds_trackActive t { v with taskStatusById }
    refine .active _ hActive (fun x h => ?_) hIds.completedTaskIds hIds.fetches
    have hSame : View.isRunning { v with taskStatusById } x = v.isRunning x := by
      apply isRunning_congr <;> rfl
    rw [← hSame]
    exact isRunning_trackActive hActive h
  | false =>
    rw [if_neg (by nofun)]
    obtain ⟨extractState, chunkState, failedAttributed, hEq, hExtract, hChunk⟩ :=
      attributeFailure_eq t { v with taskStatusById }
    simp only [hEq]
    have hSame : ∀ startedTaskIds completedTaskIds x, View.isRunning ⟨extractState, chunkState,
        v.genState, startedTaskIds, completedTaskIds, taskStatusById, failedAttributed,
        v.fetches⟩ x = v.isRunning x := by
      intro startedTaskIds completedTaskIds
      apply isRunning_congr
      · exact hExtract
      · exact hChunk
      · rfl
    by_cases hTransition : (v.taskStatusById t.id = some .queued ∨
        v.taskStatusById t.id = some .running ∨ t.id ∈ v.startedTaskIds) ∧
        t.id ∉ v.completedTaskIds
    · rw [if_pos hTransition]
      let ended : View := ⟨extractState, chunkState, v.genState, v.startedTaskIds.erase t.id,
        insert t.id v.completedTaskIds, taskStatusById, failedAttributed, v.fetches⟩
      by_cases hStatus : t.status = .succeeded
      · rw [if_pos hStatus]
        have hIds := sameIds_trackSucceeded t ended
        refine .ended _ hActive (fun x h => ?_) hIds.completedTaskIds hIds.fetches
        rw [← hSame]
        exact isRunning_trackSucceeded h
      · rw [if_neg hStatus]
        have hFailed := (isLessonTaskActive_eq_false_iff.mp hActive).resolve_left hStatus
        have hIds := sameIds_trackFailed t ended
        refine .ended _ hActive (fun x h => ?_) hIds.completedTaskIds hIds.fetches
        obtain ⟨hRunning, hNot⟩ := isRunning_trackFailed hFailed h
        exact ⟨(hSame _ _ x).symm.trans hRunning, fun hAccounts => absurd hAccounts hNot⟩
    · rw [if_neg hTransition]
      refine .passed _ hActive (fun hAwaits => hTransition ?_) (hSame _ _) rfl
        (List.Subset.refl _)
      exact ⟨hAwaits.2.imp_right .inl, hAwaits.1⟩

theorem taskStatusById_trackTask (v : View) (t : LessonTask) : (trackTask v t).taskStatusById =
    Function.update v.taskStatusById t.id (some t.status) := by
  unfold trackTask
  generalize Function.update v.taskStatusById t.id (some t.status) = taskStatusById
  split
  · exact (sameIds_trackActive t _).taskStatusById
  · obtain ⟨extractState, chunkState, failedAttributed, hEq, -⟩ :=
      attributeFailure_eq t { v with taskStatusById }
    simp only [hEq]
    split
    · split
      · exact (sameIds_trackSucceeded t _).taskStatusById
      · exact (sameIds_trackFailed t _).taskStatusById
    · rfl

theorem completedTaskIds_trackTask (v : View) (t : LessonTask) :
    (trackTask v t).completedTaskIds = v.completedTaskIds ∨
      isLessonTaskActive t = false ∧
        (trackTask v t).completedTaskIds = insert t.id v.completedTaskIds := by
  cases trackTask_cases v t with
  | active _ _ hCompleted _ => exact .inl hCompleted
  | passed _ _ _ hCompleted _ => exact .inl hCompleted
  | ended hActive _ hCompleted _ => exact .inr ⟨hActive, hCompleted⟩

theorem View.Fetching.trackTask (h : v.Fetching) (t : LessonTask) : (trackTask v t).Fetching := by
  obtain ⟨f, hf, hNe⟩ := h
  have hSubset : v.fetches ⊆ (Dashboard.trackTask v t).fetches := by
    cases trackTask_cases v t with
    | active _ _ _ hFetches => exact hFetches
    | passed _ _ _ _ hFetches => exact hFetches
    | ended _ _ _ hFetches => exact hFetches
  exact ⟨f, hSubset hf, hNe⟩

/-- A task bears on the waiting for itself only. -/
theorem awaits_trackTask_of_ne (hNe : id ≠ t.id) : (trackTask v t).Awaits id ↔ v.Awaits id := by
  have hMem : id ∈ (trackTask v t).completedTaskIds ↔ id ∈ v.completedTaskIds := by
    rcases completedTaskIds_trackTask v t with hEq | ⟨_, hEq⟩ <;> simp [hEq, hNe]
  unfold View.Awaits
  rw [hMem, taskStatusById_trackTask, Function.update_of_ne hNe]

/-- The tracker waits for a task that it sees active, if it has not seen its end before. -/
theorem awaits_trackTask_of_active (hActive : isLessonTaskActive t = true)
    (hNot : t.id ∉ v.completedTaskIds) : (trackTask v t).Awaits t.id := by
  rw [View.Awaits, taskStatusById_trackTask, Function.update_self]
  constructor
  · rcases completedTaskIds_trackTask v t with hEq | ⟨hEnd, _⟩
    · rw [hEq]
      exact hNot
    · rw [hActive] at hEnd
      cases hEnd
  · simpa using isLessonTaskActive_iff.mp hActive

theorem isRunning_trackTask (h : (trackTask v t).isRunning x = true) : Keeps x t ∨
    v.isRunning x = true ∧
      (v.Awaits t.id → Accounts x t → x = .gen ∧ (trackTask v t).Fetching) := by
  cases trackTask_cases v t with
  | active _ hRunning _ _ =>
    rcases hRunning x h with hKeeps | ⟨hBefore, hNot⟩
    · exact .inl hKeeps
    · exact .inr ⟨hBefore, fun _ hAccounts => absurd hAccounts hNot⟩
  | passed _ hNot hSame _ _ =>
    rw [hSame] at h
    exact .inr ⟨h, fun hAwaits => absurd hAwaits hNot⟩
  | ended _ hRunning _ _ =>
    obtain ⟨hBefore, hFetching⟩ := hRunning x h
    exact .inr ⟨hBefore, fun _ => hFetching⟩

/-! A list of tasks with distinct ids: the induction is on the list, with the view general. -/

variable {l : List LessonTask}

theorem View.Fetching.trackTasks (h : v.Fetching) (l : List LessonTask) :
    (trackTasks l v).Fetching := by
  induction l generalizing v with
  | nil => exact h
  | cons t l ih => exact ih (View.Fetching.trackTask h t)

theorem awaits_trackTasks_of_notMem (hNot : id ∉ l.map LessonTask.id) :
    (trackTasks l v).Awaits id ↔ v.Awaits id := by
  induction l generalizing v with
  | nil => rfl
  | cons t l ih =>
    rw [List.map_cons, List.mem_cons, not_or] at hNot
    exact (ih hNot.2).trans (awaits_trackTask_of_ne hNot.1)

theorem awaits_trackTasks_of_active (hNodup : (l.map LessonTask.id).Nodup) (ht : t ∈ l)
    (hActive : isLessonTaskActive t = true) (hNot : t.id ∉ v.completedTaskIds) :
    (trackTasks l v).Awaits t.id := by
  induction l generalizing v with
  | nil => cases ht
  | cons u l ih =>
    rw [List.map_cons, List.nodup_cons] at hNodup
    rcases List.mem_cons.mp ht with rfl | ht
    · exact (awaits_trackTasks_of_notMem hNodup.1).mpr (awaits_trackTask_of_active hActive hNot)
    · have hNe : t.id ≠ u.id := by
        intro hEq
        exact hNodup.1 (hEq ▸ List.mem_map_of_mem ht)
      apply ih hNodup.2 ht
      rcases completedTaskIds_trackTask v u with hEq | ⟨_, hEq⟩ <;> simp [hEq, hNe, hNot]

/-- A phase that runs after a list is kept by a task of the list for whose end the tracker waits, or
it ran before and the list does not account for it: a task that the tracker awaited and that
accounts for the phase leaves it running only until a request is answered. -/
theorem isRunning_trackTasks (hNodup : (l.map LessonTask.id).Nodup)
    (hFresh : ∀ t ∈ l, Keeps x t → t.id ∉ v.completedTaskIds)
    (h : (trackTasks l v).isRunning x = true) :
    (∃ t ∈ l, Keeps x t) ∨ v.isRunning x = true ∧
      ∀ t ∈ l, v.Awaits t.id → Accounts x t → x = .gen ∧ (trackTasks l v).Fetching := by
  induction l generalizing v with
  | nil => exact .inr ⟨h, fun t ht => absurd ht List.not_mem_nil⟩
  | cons t l ih =>
    rw [List.map_cons, List.nodup_cons] at hNodup
    have hNe : ∀ u ∈ l, u.id ≠ t.id := by
      intro u hu hEq
      exact hNodup.1 (hEq ▸ List.mem_map_of_mem hu)
    have hFresh' : ∀ u ∈ l, Keeps x u → u.id ∉ (trackTask v t).completedTaskIds := by
      intro u hu hKeeps
      have hNot := hFresh u (List.mem_cons_of_mem t hu) hKeeps
      rcases completedTaskIds_trackTask v t with hEq | ⟨_, hEq⟩ <;> simp [hEq, hNe u hu, hNot]
    rcases ih hNodup.2 hFresh' h with ⟨u, hu, hKeeps⟩ | ⟨hNext, hRest⟩
    · exact .inl ⟨u, List.mem_cons_of_mem t hu, hKeeps⟩
    · rcases isRunning_trackTask hNext with hKeeps | ⟨hBefore, hFirst⟩
      · exact .inl ⟨t, List.mem_cons_self, hKeeps⟩
      · refine .inr ⟨hBefore, fun u hu hAwaits hAccounts => ?_⟩
        rcases List.mem_cons.mp hu with rfl | hu
        · obtain ⟨hGen, hFetching⟩ := hFirst hAwaits hAccounts
          exact ⟨hGen, View.Fetching.trackTasks hFetching l⟩
        · exact hRest u hu ((awaits_trackTask_of_ne (hNe u hu)).mpr hAwaits) hAccounts

theorem isRunning_markStale (h : (markStale t v).isRunning x = true) : v.isRunning x = true := by
  unfold markStale at h
  cases hKind : t.kind with
  | extractTranscript =>
    cases x <;> cases hState : v.extractState <;>
      simp_all [View.isRunning, StreamRunState.isRunning]
  | chunkTranscript =>
    cases x <;> cases hState : v.chunkState <;>
      simp_all [View.isRunning, StreamRunState.isRunning]
  | generateInteractions =>
    cases x <;> cases hChunk : t.chunkId <;> cases hState : v.genState <;>
      simp_all [View.isRunning, GenRunState.isRunning]
  | runPipeline => simpa [hKind] using h
  | unspecified => simpa [hKind] using h

end Tracking

end Richter.Dashboard
