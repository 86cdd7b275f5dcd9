import Richter.Dashboard.AnalysisTaskTracker
import Richter.TaskQueue.Rows

/-! The lesson page and the server behind it, `use-lesson-tasks.ts`: the page polls the list of the
lesson's tasks and gives each list that it applies to the tracker.  Polls are numbered as they are
issued; their answers and the answers to the tracker's own requests come in any order, or not at
all.  What starts tasks from the page is left out: tasks appear on the server. -/

namespace Richter.Dashboard

open Lib TaskQueue
open Lessons (LessonTask LessonTaskStatus lessonTaskToProto)

/-- A list of tasks of the lesson, as the server returns it. -/
structure TaskList (lessonId : UUID) where
  tasks : List LessonTask
  ofLesson : ∀ t ∈ tasks, t.lessonId = lessonId
  nodup : (tasks.map LessonTask.id).Nodup

/-- `ListTasksByLesson`. -/
def listTasksByLesson (lessonId : UUID) (limit offset : Nat) (t : TaskTable) : List Task :=
  page limit offset ((t.rows.filter fun r => r.lessonId = lessonId).insertionSort
    fun a b => b.createdAt ≤ a.createdAt)

theorem listTasksByLesson_spec (lessonId : UUID) (limit offset : Nat) (t : TaskTable) :
    (∀ r ∈ listTasksByLesson lessonId limit offset t, r.lessonId = lessonId) ∧
      ((listTasksByLesson lessonId limit offset t).map Task.id).Nodup := by
  let sorted := (t.rows.filter fun r => r.lessonId = lessonId).insertionSort
    fun a b => b.createdAt ≤ a.createdAt
  have hPage : (page limit offset sorted).Sublist sorted :=
    (List.take_sublist _ _).trans (List.drop_sublist _ _)
  have hPerm : sorted.Perm (t.rows.filter fun r => r.lessonId = lessonId) :=
    List.perm_insertionSort _ _
  constructor
  · intro r hr
    have hMem := hPerm.mem_iff.mp (hPage.subset hr)
    rw [List.mem_filter] at hMem
    exact of_decide_eq_true hMem.2
  · apply (hPage.map Task.id).nodup
    rw [(hPerm.map Task.id).nodup_iff]
    exact (List.filter_sublist.map Task.id).nodup t.nodup

structure ListLessonTasksRequest where
  activeOnly : Bool
  limit : Nat
  offset : Nat

/-- `ListLessonTasks`. -/
def listLessonTasks (lessonId : UUID) (req : ListLessonTasksRequest) (t : TaskTable) :
    TaskList lessonId where
  tasks := ((listTasksByLesson lessonId (if req.limit ≤ 0 then 20 else req.limit) req.offset
    t).filter fun r => !req.activeOnly || r.status.active).map lessonTaskToProto
  ofLesson := by
    intro task hTask
    obtain ⟨r, hr, rfl⟩ := List.mem_map.mp hTask
    exact (listTasksByLesson_spec lessonId _ _ t).1 r (List.mem_of_mem_filter hr)
  nodup := by
    rw [List.map_map]
    exact (List.filter_sublist.map Task.id).nodup (listTasksByLesson_spec lessonId _ _ t).2

/-- A poll that has been issued and not yet answered; `answer` is what the server has read. -/
structure Poll (lessonId : UUID) where
  number : Nat
  answer : Option (TaskList lessonId)

/-- The list that answered a poll. -/
structure Answer (lessonId : UUID) where
  number : Nat
  list : TaskList lessonId

/-- The page and the server.  Of the lists that the tracker has processed, `latest` is that of the
poll issued last. -/
structure Site (lessonId : UUID) where
  tasks : TaskTable
  issued : Nat
  polls : List (Poll lessonId)
  pending : Option (Answer lessonId)
  lessonTasks : List LessonTask
  view : View
  latest : Option (Answer lessonId)

inductive Action
  /-- A statement on the queue of tasks. -/
  | exec (s : Stmt)
  /-- A re-transcription by the task `id` deletes the other tasks of the lesson. -/
  | deleteTasksForLessonExcept (id : UUID)
  | refreshTasks
  /-- The server answers a poll with the tasks that there are. -/
  | listLessonTasks (number : Nat)
  /-- The answer to a poll arrives. -/
  | receive (number : Nat)
  /-- A poll fails. -/
  | fail (number : Nat)
  /-- The animation frame that applies the answer received last, and the tracker's effect. -/
  | applyPending
  /-- The answer to a request of the tracker. -/
  | fetched (n : Nat) (found : Bool)
  /-- The tracker holds a task of the list stale. -/
  | stale (id : UUID)

namespace Site

variable {lessonId : UUID}

def overtaken (w : Site lessonId) (number : Nat) : Bool :=
  w.latest.any fun a => number < a.number

/-- The tasks of the latest list. -/
def latestTasks (w : Site lessonId) : List LessonTask :=
  (w.latest.map fun a => a.list.tasks).getD []

def applyPending (w : Site lessonId) : Option (Site lessonId) :=
  w.pending.map fun next =>
    { w with
      pending := none
      lessonTasks := next.list.tasks
      view := trackTasks next.list.tasks w.view
      latest := if w.overtaken next.number then w.latest else some next }

def step (w : Site lessonId) : Action → Option (Site lessonId)
  | .exec s => some { w with tasks := TaskQueue.exec w.tasks s }
  | .deleteTasksForLessonExcept id =>
      some { w with tasks := TaskQueue.deleteTasksForLessonExcept lessonId id w.tasks }
  | .refreshTasks =>
      some { w with issued := w.issued + 1, polls := w.polls ++ [⟨w.issued, none⟩] }
  | .listLessonTasks number =>
      some { w with
        polls := w.polls.map fun p =>
          if p.number = number ∧ p.answer.isNone then
            { p with answer := some (Dashboard.listLessonTasks lessonId ⟨false, 10, 0⟩ w.tasks) }
          else p }
  | .receive number =>
      (w.polls.find? fun p => p.number = number).bind fun p => p.answer.map fun list =>
        { w with
          polls := w.polls.filter fun p => p.number ≠ number
          pending := some ⟨number, list⟩ }
  | .fail number => some { w with polls := w.polls.filter fun p => p.number ≠ number }
  | .applyPending => w.applyPending
  | .fetched n found =>
      w.view.fetches[n]?.map fun f =>
        { w with
          view := { w.view with
            genState := f.genState found w.view.genState
            fetches := w.view.fetches.eraseIdx n } }
  | .stale id =>
      (w.lessonTasks.find? fun t => t.id = id && isLessonTaskActive t).map fun t =>
        { w with view := markStale t w.view }

/-- The page when it is opened: no phase runs, and nothing has been asked for. -/
structure Opened (w : Site lessonId) : Prop where
  rests : ∀ x, w.view.isRunning x = false
  issued : w.issued = 0
  polls : w.polls = []
  pending : w.pending = none
  fetches : w.view.fetches = []
  latest : w.latest = none

/-- All requests have been answered, and the tracker has processed the list `a` of the poll issued
last. -/
structure Settled (w : Site lessonId) (a : Answer lessonId) : Prop where
  polls : w.polls = []
  pending : w.pending = none
  fetches : w.view.fetches = []
  latest : w.latest = some a
  last : a.number + 1 = w.issued

/-- A task that a list shows active and that sets a phase running has not been seen at its end, and
is so in the latest list, when that is of a later poll. -/
def Fresh (w : Site lessonId) (a : Answer lessonId) : Prop :=
  ∀ t ∈ a.list.tasks, ∀ x ∈ phaseOf t, Keeps x t → t.id ∉ w.view.completedTaskIds ∧
    (w.overtaken a.number = true → ∃ o ∈ w.latestTasks, o.id = t.id ∧ Keeps x o)

/-- Where a task of the latest list keeps a phase running, a list accounts for the phase, unless it
is older. -/
def Accounted (w : Site lessonId) (a : Answer lessonId) : Prop :=
  ∀ o ∈ w.latestTasks, ∀ x ∈ phaseOf o, Keeps x o → w.view.isRunning x = true →
    (w.overtaken a.number = true ∧ ∀ t ∈ a.list.tasks, t.id ≠ o.id) ∨
      ∃ t ∈ a.list.tasks, Keeps x t ∨ t.id = o.id ∧ Accounts x t

/-- A step that applies a list applies it in order. -/
def Orderly (w : Site lessonId) : Action → Prop
  | .applyPending => ∀ a ∈ w.pending, w.Fresh a ∧ w.Accounted a
  | _ => True

instance (w : Site lessonId) (a : Answer lessonId) : Decidable (w.Fresh a) := by
  unfold Fresh
  infer_instance

instance (w : Site lessonId) (a : Answer lessonId) : Decidable (w.Accounted a) := by
  unfold Accounted
  infer_instance

instance (w : Site lessonId) (act : Action) : Decidable (w.Orderly act) :=
  match act with
  | .applyPending => inferInstanceAs (Decidable (∀ a ∈ w.pending, w.Fresh a ∧ w.Accounted a))
  | .exec _ | .deleteTasksForLessonExcept _ | .refreshTasks | .listLessonTasks _ | .receive _
  | .fail _ | .fetched _ _ | .stale _ => isTrue trivial

end Site

/-- The page of a lesson and the server as a machine. -/
def lessonPage (lessonId : UUID) : Machine (Site lessonId) Action := ⟨Site.step⟩

namespace Site

variable {lessonId : UUID} {w w' : Site lessonId} {a : Answer lessonId} {x : Phase}

/-- A phase that runs is kept running by a task of the latest list for whose end the tracker waits,
or, the generation, until a request is answered. -/
def Inv (w : Site lessonId) : Prop :=
  ∀ x, w.view.isRunning x = true →
    (∃ o ∈ w.latestTasks, Keeps x o ∧ w.view.Awaits o.id) ∨ x = .gen ∧ w.view.Fetching

theorem Opened.inv (h : w.Opened) : w.Inv := by
  intro x hRunning
  rw [h.rests x] at hRunning
  cases hRunning

/-- What does not concern the view and the latest list keeps the invariant. -/
theorem Inv.congr (h : w.Inv) (hView : w'.view = w.view) (hLatest : w'.latest = w.latest) :
    w'.Inv := by
  unfold Inv latestTasks at *
  rw [hView, hLatest]
  exact h

theorem Inv.applyPending (h : w.Inv) (hFresh : w.Fresh a) (hAccounted : w.Accounted a) :
    Inv { w with
      pending := none
      lessonTasks := a.list.tasks
      view := trackTasks a.list.tasks w.view
      latest := if w.overtaken a.number then w.latest else some a } := by
  intro x hRunning
  have hNew : ∀ t ∈ a.list.tasks, Keeps x t → t.id ∉ w.view.completedTaskIds :=
    fun t ht hKeeps => (hFresh t ht x hKeeps.2 hKeeps).1
  have hKept : ∀ t ∈ a.list.tasks, Keeps x t →
      ∃ o ∈ latestTasks { w with latest := if w.overtaken a.number then w.latest else some a },
        Keeps x o ∧ (trackTasks a.list.tasks w.view).Awaits o.id := by
    intro t ht hKeeps
    have hAwaits := awaits_trackTasks_of_active a.list.nodup ht hKeeps.1 (hNew t ht hKeeps)
    cases hOvertaken : w.overtaken a.number with
    | false => exact ⟨t, ht, hKeeps, hAwaits⟩
    | true =>
      obtain ⟨o, ho, hId, hKeepsO⟩ := (hFresh t ht x hKeeps.2 hKeeps).2 hOvertaken
      exact ⟨o, ho, hKeepsO, hId ▸ hAwaits⟩
  rcases isRunning_trackTasks a.list.nodup hNew hRunning with ⟨t, ht, hKeeps⟩ | ⟨hBefore, hRest⟩
  · exact .inl (hKept t ht hKeeps)
  · rcases h x hBefore with ⟨o, ho, hKeeps, hAwaits⟩ | ⟨hGen, hFetching⟩
    · rcases hAccounted o ho x hKeeps.2 hKeeps hBefore with
        ⟨hOvertaken, hNone⟩ | ⟨t, ht, hKeepsT | ⟨hId, hAccounts⟩⟩
      · have hNot : o.id ∉ a.list.tasks.map LessonTask.id := by
          intro hMem
          obtain ⟨t, ht, hId⟩ := List.mem_map.mp hMem
          exact hNone t ht hId
        refine .inl ⟨o, ?_, hKeeps, (awaits_trackTasks_of_notMem hNot).mpr hAwaits⟩
        show o ∈ latestTasks { w with latest := if w.overtaken a.number then _ else _ }
        rw [if_pos hOvertaken]
        exact ho
      · exact .inl (hKept t ht hKeepsT)
      · exact .inr (hRest t ht (hId ▸ hAwaits) hAccounts)
    · exact .inr ⟨hGen, hFetching.trackTasks _⟩

/-- The answer to a request of the tracker takes the generation out of running, or was not the one
to do so. -/
theorem Inv.fetched (h : w.Inv) {n : Nat} {f : Fetch} (found : Bool)
    (hf : w.view.fetches[n]? = some f) : Inv { w with
      view := { w.view with
        genState := f.genState found w.view.genState
        fetches := w.view.fetches.eraseIdx n } } := by
  intro x hRunning
  have hBefore : w.view.isRunning x = true ∧ (x = .gen → f = .afterExtract) := by
    cases x with
    | extract => exact ⟨hRunning, nofun⟩
    | chunk => exact ⟨hRunning, nofun⟩
    | gen => cases f <;> cases found <;>
        simp_all [View.isRunning, Fetch.genState, GenRunState.isRunning]
  rcases h x hBefore.1 with hAwaited | ⟨hGen, g, hg, hNe⟩
  · exact .inl hAwaited
  · refine .inr ⟨hGen, g, ?_, hNe⟩
    obtain ⟨k, hk, rfl⟩ := List.mem_iff_getElem.mp hg
    apply List.mem_eraseIdx_iff_getElem?.mpr
    refine ⟨k, ?_, List.getElem?_eq_getElem hk⟩
    rintro rfl
    rw [List.getElem?_eq_getElem hk] at hf
    exact hNe ((Option.some.inj hf).trans (hBefore.2 hGen))

theorem Inv.stale (h : w.Inv) (t : LessonTask) : Inv { w with view := markStale t w.view } := by
  intro x hRunning
  have hIds := sameIds_markStale t w.view
  rcases h x (isRunning_markStale hRunning) with ⟨o, ho, hKeeps, hAwaits⟩ | ⟨hGen, f, hf, hNe⟩
  · refine .inl ⟨o, ho, hKeeps, ?_⟩
    show (markStale t w.view).Awaits o.id
    unfold View.Awaits at hAwaits ⊢
    rw [hIds.completedTaskIds, hIds.taskStatusById]
    exact hAwaits
  · exact .inr ⟨hGen, f, hIds.fetches hf, hNe⟩

theorem Inv.step (h : w.Inv) {act : Action} (hOrderly : w.Orderly act)
    (hStep : w.step act = some w') : w'.Inv := by
  cases act with
  | exec s =>
    cases hStep
    exact h.congr rfl rfl
  | deleteTasksForLessonExcept id =>
    cases hStep
    exact h.congr rfl rfl
  | refreshTasks =>
    cases hStep
    exact h.congr rfl rfl
  | listLessonTasks number =>
    cases hStep
    exact h.congr rfl rfl
  | receive number =>
    obtain ⟨p, _, hAnswer⟩ := Option.bind_eq_some_iff.mp hStep
    obtain ⟨list, _, rfl⟩ := Option.map_eq_some_iff.mp hAnswer
    exact h.congr rfl rfl
  | fail number =>
    cases hStep
    exact h.congr rfl rfl
  | applyPending =>
    obtain ⟨next, hNext, rfl⟩ := Option.map_eq_some_iff.mp hStep
    exact h.applyPending (hOrderly next hNext).1 (hOrderly next hNext).2
  | fetched n found =>
    obtain ⟨f, hf, rfl⟩ := Option.map_eq_some_iff.mp hStep
    exact h.fetched found hf
  | stale id =>
    obtain ⟨t, _, rfl⟩ := Option.map_eq_some_iff.mp hStep
    exact h.stale t

/-- When every list has come in order, no phase runs in a page at rest unless a task of the latest
list is active. -/
theorem isActive_of_isRunning {w₀ : Site lessonId} {acts : List Action} (hOpened : w₀.Opened)
    (hRun : (lessonPage lessonId).Runs Orderly w₀ acts w) (hSettled : w.Settled a)
    (hRunning : w.view.isRunning x = true) :
    ∃ t ∈ a.list.tasks, t.lessonId = lessonId ∧ (t.status = .queued ∨ t.status = .running) := by
  have hInv : w.Inv := hRun.invariant (fun _ _ _ hOrderly hStep h => h.step hOrderly hStep)
    hOpened.inv
  rcases hInv x hRunning with ⟨t, ht, hKeeps, -⟩ | ⟨-, f, hf, -⟩
  · have hMem : t ∈ a.list.tasks := by
      rw [latestTasks, hSettled.latest] at ht
      exact ht
    exact ⟨t, hMem, a.list.ofLesson t hMem, isLessonTaskActive_iff.mp hKeeps.1⟩
  · rw [hSettled.fetches] at hf
    cases hf

/-- The page of lesson 10 when it is opened, with no tasks. -/
def opened : Site 10 where
  tasks := Table.empty
  issued := 0
  polls := []
  pending := none
  lessonTasks := []
  view := ⟨.idle, .idle, .idle, ∅, ∅, fun _ => none, ∅, []⟩
  latest := none

theorem opened_opened : opened.Opened := ⟨by rintro ⟨⟩ <;> rfl, rfl, rfl, rfl, rfl, rfl⟩

def isSettled (p : Answer lessonId → Bool) (w : Site lessonId) : Bool :=
  w.polls.isEmpty && w.pending.isNone && w.view.fetches.isEmpty &&
    w.latest.any fun a => a.number + 1 = w.issued && p a

theorem exists_settled {p : Answer lessonId → Bool} (h : isSettled p w = true) :
    ∃ a, w.Settled a ∧ p a = true := by
  simp only [isSettled, Bool.and_eq_true, List.isEmpty_iff, Option.isNone_iff_eq_none,
    Option.any_eq_true, decide_eq_true_eq] at h
  obtain ⟨⟨⟨hPolls, hPending⟩, hFetches⟩, a, hLatest, hLast, hp⟩ := h
  exact ⟨a, ⟨hPolls, hPending, hFetches, hLatest, hLast⟩, hp⟩

/-- A poll that is issued, answered and applied. -/
def poll (number : Nat) : List Action :=
  [.refreshTasks, .listLessonTasks number, .receive number, .applyPending]

/-- A worker runs a new task. -/
def running (id : UUID) (taskType : String) : List Action :=
  [.exec (.insertTask ⟨id, 10, none, taskType, none, 20⟩ 0),
    .exec (.claimNextInqueuedTask 30 [taskType] 1 fun _ => false)]

def succeeded (id : UUID) : List Action := [.exec (.markSucceeded id none (some 30) 2)]

/-- The answer to the first poll, which shows a chunking that runs, arrives after the answer to the
second, which shows its success. -/
def overtakenPoll : List Action :=
  running 1 "chunk" ++ [.refreshTasks, .listLessonTasks 0] ++ succeeded 1 ++
    [.refreshTasks, .listLessonTasks 1, .receive 1, .applyPending, .receive 0, .applyPending]

/-- A chunking is seen while it runs; its success is not, as a re-transcription deletes it. -/
def transcribedAgain : List Action :=
  running 1 "chunk" ++ poll 0 ++ succeeded 1 ++ running 2 "transcribe" ++
    [.deleteTasksForLessonExcept 2] ++ succeeded 2 ++ poll 1

theorem isActive_of_isRunning_chunking : ∃ (w : Site 10) (a : Answer 10),
    (lessonPage 10).Runs Orderly opened (running 1 "chunk" ++ poll 0) w ∧ w.Settled a ∧
      ∃ t ∈ a.list.tasks, t.lessonId = 10 ∧ (t.status = .queued ∨ t.status = .running) := by
  have hRun : (((lessonPage 10).restrict Orderly).run opened (running 1 "chunk" ++ poll 0)).any
      (fun w => isSettled (fun _ => true) w && w.view.isRunning .chunk) = true := by decide +kernel
  obtain ⟨w, hRun, hw⟩ := (Option.any_eq_true _ _).mp hRun
  rw [Bool.and_eq_true] at hw
  obtain ⟨a, hSettled, -⟩ := exists_settled hw.1
  have hRuns := Machine.Runs.of_restrict hRun
  exact ⟨w, a, hRuns, hSettled, isActive_of_isRunning opened_opened hRuns hSettled hw.2⟩

/-- A page at rest shows the chunking as running though the latest list has no active task. -/
theorem keeps_running_at_rest : opened.Opened ∧ ∀ acts ∈ [overtakenPoll, transcribedAgain],
    ∃ (w : Site 10) (a : Answer 10), (lessonPage 10).run opened acts = some w ∧ w.Settled a ∧
      w.view.isRunning .chunk = true ∧
      ¬∃ t ∈ a.list.tasks, t.lessonId = 10 ∧ (t.status = .queued ∨ t.status = .running) := by
  have hRuns : [overtakenPoll, transcribedAgain].all (fun acts =>
      ((lessonPage 10).run opened acts).any fun w =>
        isSettled (fun a => a.list.tasks.all fun t => !isLessonTaskActive t) w &&
          w.view.isRunning .chunk) = true := by decide +kernel
  refine ⟨opened_opened, fun acts hActs => ?_⟩
  obtain ⟨w, hRun, hw⟩ := (Option.any_eq_true _ _).mp (List.all_eq_true.mp hRuns acts hActs)
  rw [Bool.and_eq_true] at hw
  obtain ⟨a, hSettled, hIdle⟩ := exists_settled hw.1
  refine ⟨w, a, hRun, hSettled, hw.2, ?_⟩
  rintro ⟨t, ht, -, hStatus⟩
  have hNot := List.all_eq_true.mp hIdle t ht
  rw [isLessonTaskActive_iff.mpr hStatus] at hNot
  cases hNot

end Site

end Richter.Dashboard
