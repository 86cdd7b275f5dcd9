import Richter.Lessons.Resume
import Richter.Lessons.Wipe

/-! Which run of a task its progress is about.  `UpdateTaskProgress` looks neither at the owner of
the row nor at its status, a claim leaves the progress of the run before as it is, and an executor
goes on when its report could not be written. -/

namespace Richter.Lessons

open Lib
open TaskQueue (Task TaskTable)

/-- The task that a progress report is about, and its step. -/
def Op.report : Op → Option (UUID × String)
  | .pg (.updateTaskProgress id step ..) => some (id, step)
  | _ => none

/-- The report with which `PipelineRunExecutor.Execute` begins a stage. -/
def stageReport (taskID : UUID) (stage : String) : Option Op :=
  match stage with
  | "TRANSCRIBING" => some (.pg (.updateTaskProgress taskID stage 1 3 "Đang phiên âm video..."))
  | "CHUNKING" => some (.pg (.updateTaskProgress taskID stage 2 3 "Đang phân đoạn transcript..."))
  | "GENERATING" => some (.pg (.updateTaskProgress taskID stage 3 3 "Đang tạo bài tập..."))
  | _ => none

/-- The run has begun a stage of this name. -/
def entered (h : History) (taskID : UUID) (stage : String) : Bool :=
  (stageReport taskID stage).any fun o => h.any fun e => e.op = o

/-- A report of the run on the task was written. -/
def hasReported (h : History) (taskID : UUID) : Bool :=
  h.any fun
    | ⟨.pg (.updateTaskProgress id ..), .ok _⟩ => id = taskID
    | _ => false

/-- The thread has claimed the task last, and the row is processing. -/
def holdsTask {n : Nat} (p : System n) (i : Fin n) (id : UUID) : Bool :=
  (p.store.tasks.find id).any fun r => r.status = .processing && p.store.claimant id = some i.val

/-- A statement of the thread does not fail. -/
def Store.reached (i : Nat) (env : Env) (s : Store) : Bool :=
  env.failure.isNone && !(s.touch i env).cancelled i

/-- A report that is written is one of the executor that holds the task, unless the row is gone, and
a pipeline is failed by the executor that has claimed it last, after one of its reports was
written. -/
def reportsOwnTask {n : Nat} (p : System n) (a : Fin n × Env) : Bool :=
  match p.next a.1 with
  | some (.pg (.updateTaskProgress id ..)) =>
    !p.store.reached a.1.val a.2 || (p.store.tasks.find id).isNone || holdsTask p a.1 id
  | some (.pg (.markFailed id _ workerId)) =>
    !p.store.reached a.1.val a.2 || (p.store.tasks.find id).all fun r =>
      r.taskType ≠ "pipeline_run" || !r.ownedBy id workerId ||
        (p.store.claimant id = some a.1.val && hasReported (p.hist a.1) id)
  | _ => true

/-- The progress of every failed pipeline names a stage that the run which was last has entered. -/
def FailedNameStages {n : Nat} (p : System n) : Prop :=
  ∀ r ∈ p.store.tasks.rows, r.taskType = "pipeline_run" → r.status = .failed →
    ∃ i : Fin n, p.store.claimant r.id = some i.val ∧
      entered (p.hist i) r.id r.progressStep = true

instance {n : Nat} (p : System n) : Decidable (FailedNameStages p) :=
  inferInstanceAs (Decidable (∀ r ∈ p.store.tasks.rows, r.taskType = "pipeline_run" →
    r.status = .failed → ∃ i : Fin n, p.store.claimant r.id = some i.val ∧
      entered (p.hist i) r.id r.progressStep = true))

section Histories

variable {h : History} {id : UUID} {stage : String}

@[simp] theorem entered_concat (e : Prog.Event Op Op.Resp) :
    entered (h ++ [e]) id stage = (entered h id stage ||
      (stageReport id stage).any fun o => e.op = o) := by
  unfold entered
  cases stageReport id stage <;> simp

theorem entered_append (hEntered : entered h id stage = true) (e : Prog.Event Op Op.Resp) :
    entered (h ++ [e]) id stage = true := by
  simp [hEntered]

theorem hasReported_concat (e : Prog.Event Op Op.Resp) :
    hasReported (h ++ [e]) id = (hasReported h id || hasReported [e] id) :=
  List.any_append

theorem hasReported_of_report_none {o : Op} (ho : o.report = none) (r : o.Resp) :
    hasReported (h ++ [⟨o, r⟩]) id = hasReported h id := by
  have hNone : hasReported [⟨o, r⟩] id = false := by
    cases o with
    | pg q => cases q <;> first | rfl | cases ho
    | _ => rfl
  rw [hasReported_concat, hNone, Bool.or_false]

theorem claimedTask_concat {o : Op} (ho : o.claims = false) (r : o.Resp) :
    claimedTask (h ++ [⟨o, r⟩]) = claimedTask h := by
  have hNone : claimedTask [⟨o, r⟩] = none := by
    cases o with
    | pg q => cases q <;> first | rfl | cases ho
    | _ => rfl
  have hOr : claimedTask (h ++ [⟨o, r⟩]) = (claimedTask h).or (claimedTask [⟨o, r⟩]) :=
    List.findSome?_append
  rw [hOr, hNone, Option.or_none]

end Histories

/-- A thread claims first, and reports on what it has claimed; a report on a pipeline begins a stage
or is made in one. -/
structure ReportsOn (h : History) (o : Op) : Prop where
  first : o.claims = true → h = []
  report : ∀ id step, o.report = some (id, step) → ∃ t, claimedTask h = some t ∧ t.id = id ∧
    (t.taskType = "pipeline_run" → stageReport id step = some o ∨ entered h id step = true)

theorem report_of_forTask {o : Op} {taskID id : UUID} {step : String} (ho : o.forTask taskID = true)
    (hReport : o.report = some (id, step)) : id = taskID := by
  unfold Op.report at hReport
  split at hReport
  · cases hReport
    simpa [Op.forTask, Op.working, Op.windsUp, Op.transcribing, Op.chunking, Op.generating,
      Query.transcribing, Query.chunking, Query.generating] using ho
  · cases hReport

section Programs

variable {s : AiSvc} {t : Task} {env : TaskEnv} {h : History}

theorem reportsOn_forTask {o : Op} (ho : o.forTask t.id = true) (hTask : claimedTask h = some t)
    (hStage : ∀ id step, o.report = some (id, step) → t.taskType = "pipeline_run" →
      entered h id step = true) : ReportsOn h o where
  first hClaims := by
    have hNot : o.claims = false := claims_eq_false (.inl ⟨t.id, ho⟩)
    rw [hNot] at hClaims
    cases hClaims
  report id step hReport :=
    ⟨t, hTask, (report_of_forTask ho hReport).symm,
      fun hType => .inr (hStage id step hReport hType)⟩

/-- The executor works for the task that its worker has claimed. -/
abbrev OnTask {α : Type} (t : Task) (x : Exec α) (ok : α → History → Prop) (h : History) : Prop :=
  Prog.Meets (fun o h r h' => h' = h ++ [⟨o, r⟩]) ReportsOn x ok (fun h => claimedTask h = some t) h

/-- The report with which a stage begins. -/
theorem reportStage_onTask {label msg : String} {current : Int} (hEnv : env.taskID = t.id)
    (hStage : stageReport t.id label = some (.pg (.updateTaskProgress t.id label current 3 msg)))
    (hTask : claimedTask h = some t) :
    OnTask t (reportStage env label current msg)
      (fun _ h => claimedTask h = some t ∧ entered h t.id label = true) h := by
  unfold reportStage
  rw [hEnv]
  refine ⟨⟨nofun, ?_⟩, ?_⟩
  · rintro id step hReport
    cases hReport
    exact ⟨t, hTask, rfl, fun _ => .inl hStage⟩
  · rintro r h' rfl
    refine ⟨?_, ?_⟩
    · rw [claimedTask_concat rfl, hTask]
    · simp [hStage]

/-- The work of a stage, which reports under its label. -/
theorem work_onTask {label text : String} {kind : UUID → Op → Bool} {work : Exec Unit}
    (hWork : Performs (·.under { env with stageLabel := label } kind) work)
    (hKind : ∀ o : Op, o.under { env with stageLabel := label } kind → o.working env.taskID)
    (hEnv : env.taskID = t.id) (hLabel : label ≠ "")
    (hBegun : claimedTask h = some t ∧ entered h t.id label = true) :
    OnTask t (tryCatch work fun e => throw (e.wrap text)) (fun _ h => claimedTask h = some t)
      h := by
  have hForTask : ∀ o : Op, o.under { env with stageLabel := label } kind = true →
      o.forTask t.id = true := by
    intro o ho
    rw [← hEnv, Op.forTask, hKind o ho, Bool.true_or]
  have hMeets : OnTask t work (fun _ h => claimedTask h = some t) h := by
    refine Prog.Meets.mono (Prog.Performs.meets hWork
      (I := fun h => claimedTask h = some t ∧ entered h t.id label = true) ?_ ?_ hBegun)
      (fun _ _ => And.left) fun _ => And.left
    · rintro h o ho ⟨hTask, hEntered⟩
      refine reportsOn_forTask (hForTask o ho) hTask fun id step hReport _ => ?_
      have hStep := reportsAs_of_under ho
      obtain rfl := report_of_forTask (hForTask o ho) hReport
      unfold Op.report at hReport
      split at hReport
      · cases hReport
        simp only [Op.reportsAs, hLabel, decide_false, Bool.false_or, decide_eq_true_eq] at hStep
        rw [hStep]
        exact hEntered
      · cases hReport
    · rintro o h r h' ho ⟨hTask, hEntered⟩ rfl
      have hClaims : o.claims = false := claims_eq_false (.inl ⟨t.id, hForTask o ho⟩)
      exact ⟨by rw [claimedTask_concat hClaims, hTask], entered_append hEntered _⟩
  exact Prog.Meets.tryCatch hMeets _

theorem saveCheckpoint_onTask (stage : PipelineStage) (hTask : claimedTask h = some t) :
    OnTask t (saveCheckpoint s env stage) (fun _ h => claimedTask h = some t) h := by
  unfold saveCheckpoint
  refine ⟨⟨nofun, nofun⟩, ?_⟩
  rintro r h' rfl
  show claimedTask _ = _
  rw [claimedTask_concat rfl, hTask]

theorem transcribeStage_onTask (lessonID : UUID) (hEnv : env.taskID = t.id)
    (hTask : claimedTask h = some t) :
    OnTask t (transcribeStage s env lessonID) (fun _ h => claimedTask h = some t) h := by
  unfold transcribeStage
  refine Prog.Meets.bind (reportStage_onTask hEnv rfl hTask) (fun _ h hBegun => ?_)
  refine Prog.Meets.bind (work_onTask (transcriptRun_performs _ _ lessonID)
    working_of_transcribing hEnv (by decide) hBegun) (fun _ h hTask => ?_)
  exact saveCheckpoint_onTask _ hTask

theorem chunkStage_onTask (lessonID : UUID) (hEnv : env.taskID = t.id)
    (hTask : claimedTask h = some t) :
    OnTask t (chunkStage s env lessonID) (fun _ h => claimedTask h = some t) h := by
  unfold chunkStage
  refine Prog.Meets.bind (reportStage_onTask hEnv rfl hTask) (fun _ h hBegun => ?_)
  refine Prog.Meets.bind (work_onTask (runChunk_performs _ _ lessonID)
    working_of_chunking hEnv (by decide) hBegun) (fun _ h hTask => ?_)
  exact saveCheckpoint_onTask _ hTask

theorem generateStage_onTask (lessonID : UUID) (input : TaskInput) (done : PipelineStage)
    (hEnv : env.taskID = t.id) (hTask : claimedTask h = some t) :
    OnTask t (generateStage s env lessonID input done) (fun _ h => claimedTask h = some t) h := by
  unfold generateStage
  refine Prog.Meets.bind (reportStage_onTask hEnv rfl hTask) (fun _ h hBegun => ?_)
  exact work_onTask (generationRun_performs _ _ lessonID _) working_of_generating hEnv (by decide)
    hBegun

theorem pipelineStages_onTask (lessonID : UUID) (input : TaskInput) (done : PipelineStage)
    (hEnv : env.taskID = t.id) (hTask : claimedTask h = some t) :
    OnTask t (pipelineStages s env lessonID input done) (fun _ h => claimedTask h = some t) h := by
  have hGenerate : ∀ h, claimedTask h = some t →
      OnTask t (generateStage s env lessonID input done) (fun _ h => claimedTask h = some t) h :=
    fun h => generateStage_onTask lessonID input done hEnv
  have hChunk : ∀ h, claimedTask h = some t →
      OnTask t (do chunkStage s env lessonID
                   generateStage s env lessonID input done)
        (fun _ h => claimedTask h = some t) h := fun h hTask =>
    Prog.Meets.bind (chunkStage_onTask lessonID hEnv hTask) (fun _ h => hGenerate h)
  unfold pipelineStages
  dsimp only
  split
  · refine Prog.Meets.bind (transcribeStage_onTask lessonID hEnv hTask)
      (fun _ h hTask => ?_)
    split
    · exact hChunk h hTask
    · exact hGenerate h hTask
  · split
    · exact hChunk h hTask
    · exact hGenerate h hTask

theorem orThrow_onTask {α : Type} (r : Except Fail α) (hTask : claimedTask h = some t) :
    OnTask t (orThrow r) (fun _ h => claimedTask h = some t) h := by
  cases r <;> exact hTask

theorem pipelineRunExecute_onTask (hEnv : env.taskID = t.id) (hTask : claimedTask h = some t) :
    OnTask t (pipelineRunExecute s env) (fun _ h => claimedTask h = some t) h := by
  have hWork : OnTask t (pipelineRunWork s env) (fun _ h => claimedTask h = some t) h := by
    unfold pipelineRunWork
    refine Prog.Meets.bind (orThrow_onTask _ hTask) (fun input h hTask => ?_)
    refine Prog.Meets.bind (orThrow_onTask _ hTask) (fun lessonID h hTask => ?_)
    exact pipelineStages_onTask lessonID input _ hEnv hTask
  unfold pipelineRunExecute stamped
  refine Prog.Meets.bind hWork (fun _ h hTask => ?_)
  refine ⟨⟨nofun, nofun⟩, ?_⟩
  rintro r h' rfl
  show claimedTask _ = _
  rw [claimedTask_concat rfl, hTask]

/-- Of a task of another type, any report will do. -/
theorem performs_reportsOn {α : Type} {p : Prog Op Op.Resp α}
    (hp : p.Performs fun o => o.forTask t.id = true ∧
      (t.taskType = "pipeline_run" → o.report = none)) (hTask : claimedTask h = some t) :
    p.Along ReportsOn (fun _ _ => True) h := by
  refine Prog.Ensures.mono (Prog.Performs.ensures hp (I := fun h => claimedTask h = some t) ?_ ?_
    hTask) (fun _ _ => id) fun _ _ _ => trivial
  · rintro h o ⟨ho, hNone⟩ hTask
    refine reportsOn_forTask ho hTask fun id step hReport hType => ?_
    rw [hNone hType] at hReport
    cases hReport
  · rintro o h r h' ⟨ho, _⟩ hTask rfl
    rw [claimedTask_concat (claims_eq_false (.inl ⟨t.id, ho⟩)), hTask]

theorem report_of_windsUp {o : Op} (ho : o.windsUp = true) : o.report = none := by
  cases o with
  | pg q => cases q <;> first | rfl | cases ho
  | _ => rfl

theorem runTask_reportsOn (workerID : UUID) (hTask : claimedTask h = some t) :
    (runTask s workerID t).Along ReportsOn (fun _ _ => True) h := by
  by_cases hType : t.taskType = "pipeline_run"
  · have hLookup : lookup s (taskEnv workerID t) =
        some (pipelineRunExecute s (taskEnv workerID t)) := by
      unfold lookup
      rw [show (taskEnv workerID t).taskType = "pipeline_run" from hType]
      rfl
    have hFinish : ∀ result h, claimedTask h = some t →
        (finishTask workerID t result).Along ReportsOn (fun _ _ => True) h := fun result h =>
      performs_reportsOn ((finishTask_performs workerID t result).mono fun o ho =>
        ⟨by simp [Op.forTask, ho], fun _ => report_of_windsUp ho⟩)
    have hExecute : OnTask t (pipelineRunExecute s (taskEnv workerID t))
        (fun _ h => claimedTask h = some t) h := pipelineRunExecute_onTask rfl hTask
    unfold runTask
    rw [hLookup]
    refine (Prog.ensures_bind _).mpr (Prog.Ensures.mono hExecute (fun _ _ => id) ?_)
    intro result h hResult
    cases result with
    | error e => exact hFinish _ h hResult
    | ok output => exact hFinish _ h hResult
  · exact performs_reportsOn ((runTask_performs workerID t).mono fun o ho =>
      ⟨ho, fun h => absurd h hType⟩) hTask

theorem Party.reportsOn (s : AiSvc) (party : Party) :
    (party.program s).Along ReportsOn (fun _ _ => True) [] := by
  have hOther : ∀ (A : Op → Bool), (∀ o : Op, A o = true → o.claims = false ∧ o.report = none) →
      (party.program s).Performs (fun o => A o = true) →
      (party.program s).Along ReportsOn (fun _ _ => True) [] := by
    intro A hA hPerforms
    refine hPerforms.ensures (I := fun _ => True) (fun h o ho _ => ?_)
      (fun _ _ _ _ _ _ _ => trivial) trivial
    obtain ⟨hClaims, hReport⟩ := hA o ho
    exact ⟨fun hNot => by simp [hClaims] at hNot, fun _ _ hSome => by simp [hReport] at hSome⟩
  obtain ⟨workerId, allowedTypes, rfl⟩ | hRequest | ⟨_, hEdits⟩ := party.performs s
  · have hClaim : (claimAndRun s workerId allowedTypes).Along ReportsOn (fun _ _ => True) [] := by
      refine ⟨⟨fun _ => rfl, nofun⟩, ?_⟩
      rintro (e | task) h rfl
      · trivial
      · exact runTask_reportsOn workerId rfl
    exact (Prog.ensures_bind _).mpr hClaim
  · refine hOther _ (fun o ho => ⟨claims_eq_false (.inr (.inl ho)), ?_⟩) hRequest
    cases o with
    | pg q => cases q <;> first | rfl | cases ho
    | _ => rfl
  · refine hOther _ (fun o ho => ⟨claims_eq_false (.inr (.inr ho)), ?_⟩) hEdits
    cases o with
    | pg q => cases q <;> first | rfl | cases ho
    | _ => rfl

end Programs

/-! What the statements do to the rows, as far as their progress is concerned. -/

/-- The row as it was, but for columns other than those of its progress and its type; it has come
neither to be processing nor to be failed. -/
structure SameProgress (r r' : Task) : Prop where
  taskType : r'.taskType = r.taskType
  progressStep : r'.progressStep = r.progressStep
  processing : r'.status = .processing → r.status = .processing
  failed : r'.status = .failed → r.status = .failed

theorem SameProgress.refl (r : Task) : SameProgress r r := ⟨rfl, rfl, id, id⟩

/-- The statement claims a task, reports on one or fails one. -/
def movesProgress : TaskQueue.Stmt → Bool
  | .claimNextInqueuedTask .. | .updateTaskProgress .. | .markFailed .. => true
  | _ => false

section Rows

variable {t : TaskTable} {k : UUID} {r' : Task}

theorem find_update_sameProgress {p : Task → Bool} {f : Task → Task} (hf : ∀ r, (f r).id = r.id)
    (h : ∀ r, SameProgress r (f r)) (hr' : (t.update p f hf).find k = some r') :
    ∃ r, t.find k = some r ∧ SameProgress r r' := by
  rw [Table.find_update] at hr'
  obtain ⟨r, hr, rfl⟩ := Option.map_eq_some_iff.mp hr'
  refine ⟨r, hr, ?_⟩
  split
  · exact h r
  · exact .refl r

theorem find_delete_sameProgress {p : Task → Bool} (hr' : (t.delete p).find k = some r') :
    ∃ r, t.find k = some r ∧ SameProgress r r' := by
  rw [Table.find_delete, Option.filter_eq_some_iff] at hr'
  exact ⟨r', hr'.1, .refl r'⟩

theorem exec_sameProgress {stmt : TaskQueue.Stmt} (hStmt : movesProgress stmt = false)
    (hr' : (TaskQueue.exec t stmt).find k = some r') :
    (∃ r, t.find k = some r ∧ SameProgress r r') ∨ r'.status = .inqueued := by
  cases stmt with
  | insertTask p now =>
    obtain ⟨r, hr, hStep⟩ | ⟨_, p, queueSeq, now, _, rfl⟩ := TaskQueue.exec_find_inv hr'
    · have hSame := TaskQueue.find_exec_insertTask p now hr
      rw [hr', Option.some.injEq] at hSame
      exact .inl ⟨r, hr, hSame ▸ .refl r⟩
    · exact .inr rfl
  | heartbeatTask id workerId now =>
    exact .inl (find_update_sameProgress (Task.setHeartbeat_id now)
      (fun r => ⟨rfl, rfl, fun h => h, fun h => h⟩) hr')
  | reapStaleProcessingBatch limit staleBefore now locked =>
    exact .inl (find_update_sameProgress (fun r => Task.setReaped_id _ now r)
      (fun r => ⟨rfl, rfl, nofun, nofun⟩) hr')
  | requeueOrphanedInqueuedBatch limit staleBefore now locked =>
    exact .inl (find_update_sameProgress (fun r => Task.setRequeued_id _ now r)
      (fun r => ⟨rfl, rfl, fun h => h, fun h => h⟩) hr')
  | markSucceeded id outputPayload workerId now =>
    exact .inl (find_update_sameProgress (Task.setSucceeded_id outputPayload now)
      (fun r => ⟨rfl, rfl, nofun, nofun⟩) hr')
  | cancelTask id now =>
    exact .inl (find_update_sameProgress (Task.setCancelled_id now)
      (fun r => ⟨rfl, rfl, nofun, nofun⟩) hr')
  | setTaskCheckpoint id outputPayload workerId now =>
    exact .inl (find_update_sameProgress (Task.setCheckpoint_id outputPayload now)
      (fun r => ⟨rfl, rfl, fun h => h, fun h => h⟩) hr')
  | claimNextInqueuedTask | updateTaskProgress | markFailed => cases hStmt

/-- A claim changes the row that it returns only. -/
theorem find_claim_ne {workerId : UUID} {taskTypes : List String} {now : TaskQueue.Timestamptz}
    {locked : UUID → Bool} {t' : TaskTable} {r : Task} (hk : k ≠ r.id)
    (h : TaskQueue.claimNextInqueuedTask workerId taskTypes now locked t = (t', some r)) :
    t'.find k = t.find k := by
  unfold TaskQueue.claimNextInqueuedTask at h
  split at h
  · cases h
  · next c hc =>
    cases h
    rw [Table.find_update]
    cases hFind : t.find k with
    | none => rfl
    | some r => simp [Table.find_key hFind, show k ≠ c.id from hk]

end Rows

section Store

variable {i : Nat} {env : Env} {st st' : Store} {k : UUID} {r' : Task}

/-- An operation that neither claims nor reports nor fails. -/
theorem exec_op_sameProgress {o : Op} {r : o.Resp} (h : exec i env o st = some (r, st'))
    (hMoves : ∀ q stmt, o = .pg q → q.stmt env = some stmt → movesProgress stmt = false)
    (hr' : st'.tasks.find k = some r') :
    (∃ r, st.tasks.find k = some r ∧ SameProgress r r') ∨ r'.status = .inqueued := by
  obtain hSame | ⟨q, stmt, hq, hStmt, hTasks⟩ | ⟨lessonId, _, hTasks⟩ | ⟨lessonId, id, _, hTasks⟩ :=
    exec_tasks h
  · rw [hSame] at hr'
    exact .inl ⟨r', hr', .refl r'⟩
  · rw [hTasks] at hr'
    exact exec_sameProgress (hMoves q stmt hq hStmt) hr'
  · rw [hTasks] at hr'
    exact .inl (find_delete_sameProgress hr')
  · rw [hTasks] at hr'
    exact .inl (find_delete_sameProgress hr')

/-- A claim finds no row, or it changes the row that it returns, and no other. -/
theorem exec_claim_rows {workerId : UUID} {taskTypes : List String} {r : Except DbError Task}
    (h : exec i env (.pg (.claimNextInqueuedTask workerId taskTypes)) st = some (r, st')) :
    ((∃ e, r = .error e) ∧ st'.tasks = st.tasks ∧ st'.claimant = st.claimant) ∨
      ∃ t, r = .ok t ∧ t.status = .processing ∧ st'.tasks.find t.id = some t ∧
        (∀ k, k ≠ t.id → st'.tasks.find k = st.tasks.find k) ∧
        st'.claimant = Function.update st.claimant t.id (some i) := by
  obtain ⟨e, rfl, rfl⟩ | ⟨_, hQuery⟩ := exec_pg h
  · exact .inl ⟨⟨e, rfl⟩, rfl, rfl⟩
  · unfold Query.exec at hQuery
    dsimp only at hQuery
    split at hQuery
    · cases hQuery
      exact .inl ⟨⟨_, rfl⟩, rfl, rfl⟩
    · next tasks t hClaim =>
      cases hQuery
      have hOthers : ∀ k, k ≠ t.id → tasks.find k = st.tasks.find k :=
        fun k hk => find_claim_ne hk hClaim
      obtain ⟨hFind, c, _, _, rfl⟩ := TaskQueue.find_claimNextInqueuedTask hClaim
      exact .inr ⟨_, rfl, rfl, hFind, hOthers, rfl⟩

/-- A statement that does not get through fails. -/
theorem exec_of_not_reached {q : Query} {r : Except DbError q.Result}
    (h : exec i env (.pg q) st = some (r, st')) (hNot : st.reached i env = false) :
    (∃ e, r = .error e) ∧ st'.tasks = st.tasks ∧ st'.claimant = st.claimant := by
  unfold exec at h
  dsimp only at h
  split at h
  · cases h
    exact ⟨⟨_, rfl⟩, rfl, rfl⟩
  · next hLive =>
    split at h
    · cases h
      exact ⟨⟨_, rfl⟩, rfl, rfl⟩
    · next hNone => simp [Store.reached, hNone, hLive] at hNot

end Store

section Runs

variable {n : Nat}

/-- A row, the thread that has claimed it last, and the histories of the threads: once that thread
has reported, the progress of a pipeline is its. -/
structure Reporting (hist : Fin n → History) (last : Option Nat) (r : Task) : Prop where
  claimed : r.status = .processing → ∀ i t, last = some i.val → claimedTask (hist i) = some t →
    t.id = r.id → t.taskType = r.taskType
  current : r.taskType = "pipeline_run" → r.status = .processing → ∀ i, last = some i.val →
    hasReported (hist i) r.id = true → entered (hist i) r.id r.progressStep = true
  failed : r.taskType = "pipeline_run" → r.status = .failed →
    ∃ i, last = some i.val ∧ entered (hist i) r.id r.progressStep = true

variable {st st' : Store} {hist : Fin n → History} {i : Fin n} {env : Env} {last : Option Nat}
  {r r' : Task}

theorem reporting_inqueued (h : r.status = .inqueued) : Reporting hist last r := by
  constructor
  · intro hStatus
    rw [h] at hStatus
    cases hStatus
  · intro _ hStatus
    rw [h] at hStatus
    cases hStatus
  · intro _ hStatus
    rw [h] at hStatus
    cases hStatus

/-- A thread goes on that has neither claimed the row nor written a report on it with this. -/
theorem Reporting.same (h : Reporting hist last r) {e : Prog.Event Op Op.Resp}
    (hSame : SameProgress r r') (hId : r'.id = r.id)
    (hTask : ∀ t, claimedTask (hist i ++ [e]) = some t → t.id = r.id →
      claimedTask (hist i) = some t)
    (hReported : hasReported (hist i ++ [e]) r.id = true → hasReported (hist i) r.id = true) :
    Reporting (Function.update hist i (hist i ++ [e])) last r' := by
  have hTasks : ∀ j t, claimedTask (Function.update hist i (hist i ++ [e]) j) = some t →
      t.id = r.id → claimedTask (hist j) = some t := by
    rw [Function.forall_update_iff hist fun j h => ∀ t, claimedTask h = some t → t.id = r.id →
      claimedTask (hist j) = some t]
    exact ⟨hTask, fun j _ t hOf _ => hOf⟩
  have hReports : ∀ j, hasReported (Function.update hist i (hist i ++ [e]) j) r.id = true →
      hasReported (hist j) r.id = true := by
    rw [Function.forall_update_iff hist fun j h => hasReported h r.id = true →
      hasReported (hist j) r.id = true]
    exact ⟨hReported, fun j _ hHas => hHas⟩
  have hEntered : ∀ j stage, entered (hist j) r.id stage = true →
      entered (Function.update hist i (hist i ++ [e]) j) r.id stage = true := by
    rw [Function.forall_update_iff hist fun j h => ∀ stage, entered (hist j) r.id stage = true →
      entered h r.id stage = true]
    exact ⟨fun stage hOld => entered_append hOld e, fun j _ stage hOld => hOld⟩
  constructor
  · intro hStatus j t hLast hOf ht
    rw [hId] at ht
    rw [hSame.taskType]
    exact h.claimed (hSame.processing hStatus) j t hLast (hTasks j t hOf ht) ht
  · intro hType hStatus j hLast hHas
    rw [hSame.taskType] at hType
    rw [hId] at hHas ⊢
    rw [hSame.progressStep]
    exact hEntered j _ (h.current hType (hSame.processing hStatus) j hLast (hReports j hHas))
  · intro hType hStatus
    rw [hSame.taskType] at hType
    obtain ⟨j, hLast, hOld⟩ := h.failed hType (hSame.failed hStatus)
    rw [hId, hSame.progressStep]
    exact ⟨j, hLast, hEntered j _ hOld⟩

/-- An operation that neither claims nor reports adds nothing to what the thread has claimed and
reported on. -/
theorem Reporting.go_on (h : Reporting hist last r) {o : Op} (hClaims : o.claims = false)
    (hReport : o.report = none) (resp : o.Resp) (hSame : SameProgress r r') (hId : r'.id = r.id) :
    Reporting (Function.update hist i (hist i ++ [⟨o, resp⟩])) last r' := by
  refine h.same hSame hId (fun t hOf _ => ?_) fun hHas => ?_
  · rwa [claimedTask_concat hClaims] at hOf
  · rwa [hasReported_of_report_none hReport] at hHas

/-- Of each row that is there, its progress is that of its last run. -/
def AllReporting (st : Store) (hist : Fin n → History) : Prop :=
  ∀ k r, st.tasks.find k = some r → Reporting hist (st.claimant k) r

theorem quiet_allReporting {o : Op} {resp : o.Resp} (hClaims : o.claims = false)
    (hReport : o.report = none) (hFails : ∀ id err w, o ≠ .pg (.markFailed id err w))
    (hExec : exec i.val env o st = some (resp, st')) (h : AllReporting st hist) :
    AllReporting st' (Function.update hist i (hist i ++ [⟨o, resp⟩])) := by
  intro k r' hr'
  have hMoves : ∀ q stmt, o = .pg q → q.stmt env = some stmt → movesProgress stmt = false := by
    rintro q stmt rfl hStmt
    cases q with
    | claimNextInqueuedTask => cases hClaims
    | updateTaskProgress => cases hReport
    | markFailed => exact absurd rfl (hFails _ _ _)
    | _ => cases hStmt <;> rfl
  obtain ⟨r, hr, hSame⟩ | hInqueued := exec_op_sameProgress hExec hMoves hr'
  · have hClaimant : st'.claimant = st.claimant := (exec_record hExec).2.2 hClaims
    have hId : r'.id = r.id := (Table.find_key hr').trans (Table.find_key hr).symm
    rw [hClaimant]
    exact (h k r hr).go_on hClaims hReport resp hSame hId
  · exact reporting_inqueued hInqueued

/-- A pipeline is failed by the thread that has claimed it last and has reported on it. -/
theorem markFailed_allReporting {id : UUID} {errorMsg : Option String} {workerId : Option UUID}
    {resp : Except DbError Unit}
    (hOwn : st.reached i.val env = true → ∀ r, st.tasks.find id = some r →
      r.taskType = "pipeline_run" → r.ownedBy id workerId = true →
      st.claimant id = some i.val ∧ hasReported (hist i) id = true)
    (hExec : exec i.val env (.pg (.markFailed id errorMsg workerId)) st = some (resp, st'))
    (h : AllReporting st hist) :
    AllReporting st'
      (Function.update hist i (hist i ++ [⟨.pg (.markFailed id errorMsg workerId), resp⟩])) := by
  intro k r' hr'
  have hClaimant : st'.claimant = st.claimant := (exec_record hExec).2.2 rfl
  have hKept : st.tasks.find k = some r' → Reporting (Function.update hist i
      (hist i ++ [⟨.pg (.markFailed id errorMsg workerId), resp⟩])) (st'.claimant k) r' := by
    intro hr
    rw [hClaimant]
    exact (h k r' hr).go_on (o := .pg (.markFailed id errorMsg workerId)) rfl rfl resp (.refl r')
      rfl
  cases hReached : st.reached i.val env with
  | false =>
    obtain ⟨_, hTasks, _⟩ := exec_of_not_reached hExec hReached
    exact hKept (hTasks ▸ hr')
  | true =>
    obtain ⟨e, rfl, rfl⟩ | ⟨_, hQuery⟩ := exec_pg hExec
    · exact hKept hr'
    · cases hQuery
      rw [TaskQueue.markFailed, Table.find_update] at hr'
      obtain ⟨r, hr, hNew⟩ := Option.map_eq_some_iff.mp hr'
      replace hr : st.tasks.find k = some r := hr
      split at hNew
      · next hOwned =>
        subst hNew
        obtain ⟨hId, _, hProcessing⟩ := TaskQueue.ownedBy_iff.mp hOwned
        have hk : r.id = k := Table.find_key hr
        refine ⟨fun h => (by cases h), fun _ h => (by cases h), fun hType _ => ?_⟩
        obtain ⟨hLast, hHas⟩ := hOwn hReached r (by rw [← hId, hk, hr]) hType hOwned
        rw [← hId, hk] at hLast
        rw [← hId] at hHas
        refine ⟨i, hLast, ?_⟩
        rw [Function.update_self]
        exact entered_append ((h k r hr).current hType hProcessing i hLast hHas) _
      · subst hNew
        exact hKept hr

/-- A report that is written is one of the thread that holds the task. -/
theorem report_allReporting {id : UUID} {step message : String} {current total : Int}
    {resp : Except DbError Unit}
    (hOwn : st.reached i.val env = true → ∀ r, st.tasks.find id = some r →
      r.status = .processing ∧ st.claimant id = some i.val)
    (hOp : ReportsOn (hist i) (.pg (.updateTaskProgress id step current total message)))
    (hExec : exec i.val env (.pg (.updateTaskProgress id step current total message)) st =
      some (resp, st'))
    (h : AllReporting st hist) :
    AllReporting st' (Function.update hist i
      (hist i ++ [⟨.pg (.updateTaskProgress id step current total message), resp⟩])) := by
  obtain ⟨t, hTask, hOf, hStage⟩ := hOp.report id step rfl
  have hTasks : claimedTask (hist i ++
      [⟨.pg (.updateTaskProgress id step current total message), resp⟩]) = claimedTask (hist i) :=
    claimedTask_concat (o := .pg (.updateTaskProgress id step current total message)) rfl resp
  have hClaimant : st'.claimant = st.claimant := (exec_record hExec).2.2 rfl
  have hUnreported : ∀ k r, st.tasks.find k = some r →
      hasReported [⟨.pg (.updateTaskProgress id step current total message), resp⟩] r.id = false →
      Reporting (Function.update hist i (hist i ++
        [⟨.pg (.updateTaskProgress id step current total message), resp⟩])) (st.claimant k) r := by
    intro k r hr hNew
    refine (h k r hr).same (.refl r) rfl (fun t' ht' _ => hTasks ▸ ht') fun hHas => ?_
    rwa [hasReported_concat, hNew, Bool.or_false] at hHas
  intro k r' hr'
  rw [hClaimant]
  cases hReached : st.reached i.val env with
  | false =>
    obtain ⟨⟨e, rfl⟩, hSame, _⟩ := exec_of_not_reached hExec hReached
    rw [hSame] at hr'
    exact hUnreported k r' hr' rfl
  | true =>
    obtain ⟨e, rfl, rfl⟩ | ⟨_, hQuery⟩ := exec_pg hExec
    · exact hUnreported k r' hr' rfl
    · cases hQuery
      rw [TaskQueue.updateTaskProgress, Table.find_update] at hr'
      obtain ⟨r, hr, hNew⟩ := Option.map_eq_some_iff.mp hr'
      replace hr : st.tasks.find k = some r := hr
      have hk : r.id = k := Table.find_key hr
      split at hNew
      · next hId =>
        subst hNew
        have hId : r.id = id := of_decide_eq_true hId
        obtain ⟨hProcessing, hLast⟩ := hOwn hReached r (by rw [← hId, hk, hr])
        rw [← hId, hk] at hLast
        refine ⟨fun _ j t' hj ht' hId' => ?_, fun hType _ j hj _ => ?_, fun _ hFailed => ?_⟩
        · obtain rfl : j = i := Fin.ext (Option.some.inj (hj.symm.trans hLast))
          rw [Function.update_self, hTasks] at ht'
          exact (h k r hr).claimed hProcessing j t' hLast ht' hId'
        · obtain rfl : j = i := Fin.ext (Option.some.inj (hj.symm.trans hLast))
          have hPipeline : t.taskType = "pipeline_run" :=
            ((h k r hr).claimed hProcessing j t hLast hTask (hOf.trans hId.symm)).trans hType
          rw [Function.update_self, Task.setProgress_id, hId, entered_concat]
          rcases hStage hPipeline with hBegins | hEntered
          · show (_ || (stageReport id step).any _) = true
            rw [hBegins]
            simp
          · show (entered _ id step || _) = true
            rw [hEntered, Bool.true_or]
        · have hStatus : r.status = .failed := hFailed
          rw [hProcessing] at hStatus
          cases hStatus
      · next hId =>
        subst hNew
        have hOther : id ≠ r.id := fun hEq => hId (decide_eq_true hEq.symm)
        exact hUnreported k r hr ((Bool.or_false _).trans (decide_eq_false hOther))

/-- A claim is the first operation of its thread. -/
theorem claim_allReporting {workerId : UUID} {taskTypes : List String} {resp : Except DbError Task}
    (hOp : ReportsOn (hist i) (.pg (.claimNextInqueuedTask workerId taskTypes)))
    (hExec : exec i.val env (.pg (.claimNextInqueuedTask workerId taskTypes)) st =
      some (resp, st'))
    (h : AllReporting st hist) :
    AllReporting st' (Function.update hist i
      (hist i ++ [⟨.pg (.claimNextInqueuedTask workerId taskTypes), resp⟩])) := by
  have hFirst : hist i = [] := hOp.first rfl
  have hReported : ∀ k, hasReported (hist i ++
      [⟨.pg (.claimNextInqueuedTask workerId taskTypes), resp⟩]) k = false := by
    intro k
    rw [hFirst]
    rfl
  have hKept : ∀ k r, st.tasks.find k = some r → (∀ t, resp = .ok t → t.id ≠ k) →
      Reporting (Function.update hist i (hist i ++
        [⟨.pg (.claimNextInqueuedTask workerId taskTypes), resp⟩])) (st.claimant k) r := by
    intro k r hr hOther
    refine (h k r hr).same (.refl r) rfl (fun t ht hId => ?_) fun hHas => ?_
    · rw [hFirst] at ht
      have hOk : resp = .ok t := by
        cases resp with
        | error e => cases ht
        | ok t' =>
          cases ht
          rfl
      exact absurd (hId.trans (Table.find_key hr)) (hOther t hOk)
    · rw [hReported] at hHas
      cases hHas
  intro k r' hr'
  obtain ⟨⟨e, rfl⟩, hTasks, hClaimant⟩ | ⟨t, rfl, hStatus, hFind, hOthers, hClaimant⟩ :=
    exec_claim_rows hExec
  · rw [hTasks] at hr'
    rw [hClaimant]
    exact hKept k r' hr' fun t ht => by cases ht
  · by_cases hk : k = t.id
    · subst hk
      obtain rfl : t = r' := Option.some.inj (hFind.symm.trans hr')
      rw [hClaimant, Function.update_self]
      refine ⟨fun _ j t' hj ht' _ => ?_, fun _ _ j hj hHas => ?_, fun _ hFailed => ?_⟩
      · obtain rfl : i = j := Fin.ext (Option.some.inj hj)
        rw [Function.update_self, hFirst] at ht'
        cases ht'
        rfl
      · obtain rfl : i = j := Fin.ext (Option.some.inj hj)
        rw [Function.update_self, hReported] at hHas
        cases hHas
      · rw [hStatus] at hFailed
        cases hFailed
    · rw [hClaimant, Function.update_of_ne hk]
      rw [hOthers k hk] at hr'
      refine hKept k r' hr' fun t' ht' => ?_
      cases ht'
      exact Ne.symm hk

variable {p q : System n}

theorem step_allReporting {o : Op} {resp : o.Resp} (hG : reportsOwnTask p (i, env) = true)
    (hNext : p.next i = some o) (hOp : ReportsOn (p.hist i) o)
    (hExec : exec i.val env o p.store = some (resp, st')) (h : AllReporting p.store p.hist) :
    AllReporting st' (Function.update p.hist i (p.hist i ++ [⟨o, resp⟩])) := by
  cases o with
  | pg q =>
    cases q with
    | claimNextInqueuedTask workerId taskTypes => exact claim_allReporting hOp hExec h
    | markFailed id errorMsg workerId =>
      refine markFailed_allReporting (fun hReached r hr hType hOwned => ?_) hExec h
      unfold reportsOwnTask at hG
      rw [hNext] at hG
      simpa [hReached, hr, hType, hOwned] using hG
    | updateTaskProgress id step current total message =>
      refine report_allReporting (fun hReached r hr => ?_) hOp hExec h
      unfold reportsOwnTask at hG
      rw [hNext] at hG
      simpa [hReached, hr, holdsTask] using hG
    | _ => exact quiet_allReporting rfl rfl (by simp) hExec h
  | _ => exact quiet_allReporting rfl rfl (by simp) hExec h

/-- A report on a task that the thread does not hold. -/
theorem tasks_of_late_report {id : UUID} {step : String} {o : Op}
    (hG : reportsOwnTask p (i, env) = true) (hNext : p.next i = some o)
    (hReport : o.report = some (id, step)) (hLate : holdsTask p i id = false)
    (hStep : (system n).step p (i, env) = some q) : q.store.tasks = p.store.tasks := by
  obtain ⟨o', k, resp, st', hProg, hExec, rfl⟩ := Pool.step_cases hStep
  obtain rfl : o' = o := by
    rw [Pool.next, hProg, Option.some.injEq] at hNext
    exact hNext
  show st'.tasks = p.store.tasks
  unfold Op.report at hReport
  split at hReport
  · cases hReport
    unfold reportsOwnTask at hG
    rw [hNext] at hG
    cases hReached : p.store.reached i.val env with
    | false => exact (exec_of_not_reached hExec hReached).2.1
    | true =>
      have hGone : p.store.tasks.find id = none := by simpa [hReached, hLate] using hG
      obtain ⟨e, rfl, rfl⟩ | ⟨_, hQuery⟩ := exec_pg hExec
      · rfl
      · cases hQuery
        have hNone : ∀ r ∈ p.store.tasks.rows, decide (r.id = id) = false := by
          intro r hr
          refine decide_eq_false ?_
          rintro rfl
          rw [Table.mem_rows_iff, hGone] at hr
          cases hr
        exact Table.update_eq_self (Task.setProgress_id _ _ _ _ _) hNone
  · cases hReport

/-- In every run in which a report that is written is one of the executor that holds its task, and
in which a pipeline is failed by the one that has claimed it last and has written a report: a report
on a task that the executor does not hold changes no row, and the progress of every failed pipeline
names a stage that its last run has entered. -/
theorem progress_names_last_run {s : AiSvc} {party : Fin n → Party} {store : Store}
    {steps : List (Fin n × Env)}
    (hStart : ∀ r ∈ store.tasks.rows, r.taskType = "pipeline_run" → r.status ≠ .failed)
    (hRun : (system n).Runs (fun p a => reportsOwnTask p a = true) (.start s party store) steps p) :
    (∀ i env o id step q, reportsOwnTask p (i, env) = true → p.next i = some o →
      o.report = some (id, step) → holdsTask p i id = false →
      (system n).step p (i, env) = some q → q.store.tasks = p.store.tasks) ∧
      FailedNameStages p := by
  have hInit : AllReporting store fun _ : Fin n => [] := by
    intro k r hr
    refine ⟨fun _ _ _ _ => nofun, fun _ _ _ _ => nofun, fun hType hFailed => ?_⟩
    exact absurd hFailed (hStart r (Table.find_eq_some_iff.mp hr).1 hType)
  have hInv := (Pool.runs_invariant (I := AllReporting)
    (fun p i env o resp st' hG hNext hOp h hExec => step_allReporting hG hNext hOp hExec h)
    hRun (fun i => (party i).reportsOn s) hInit).1
  refine ⟨fun i env o id step q => tasks_of_late_report, fun r hr hType hFailed => ?_⟩
  exact (hInv r.id r (Table.mem_rows_iff.mp hr)).failed hType hFailed

end Runs

/-- The pipeline is claimed and reported on, and its lesson cannot be read. -/
def failsAtOnce (i : Fin 3) : List (Fin 3 × Env) :=
  [(i, calm), (i, calm), (i, { failure := some (.other "conn closed") }), (i, calm)]

theorem progress_names_last_run_failsAtOnce :
    ∃ p, (system 3).run (.start demoSvc crashAndReclaim (pipelineQueued false)) (failsAtOnce 2) =
        some p ∧
      (∀ i env o id step q, reportsOwnTask p (i, env) = true → p.next i = some o →
        o.report = some (id, step) → holdsTask p i id = false →
        (system 3).step p (i, env) = some q → q.store.tasks = p.store.tasks) ∧
      FailedNameStages p :=
  ⟨_, rfl, @progress_names_last_run 3 _ demoSvc crashAndReclaim (pipelineQueued false)
    (failsAtOnce 2) (by decide) (Machine.Runs.of_restrict rfl)⟩

def heard : Env := { transcribed := .ok ("xin chao", []) }

/-- The first worker transcribes for longer than its heartbeats last, and goes on after the second
one has failed the pipeline in its transcribe stage. -/
def goesOnAfterFailure : List (Fin 3 × Env) :=
  schedule 2 (List.replicate 12 (0, heard) ++ [(1, calm)]) ++ failsAtOnce (.last 2) ++
    schedule 2 (List.replicate 5 (0, heard))

/-- The row of the failed pipeline then says that it was in the chunk stage. -/
theorem late_report_renames_stage :
    ¬ ∀ (n : Nat) (s : AiSvc) (party : Fin n → Party) (store : Store) (steps : List (Fin n × Env))
      (p : System n),
      (∀ r ∈ store.tasks.rows, r.taskType = "pipeline_run" → r.status ≠ .failed) →
      (system n).run (.start s party store) steps = some p →
      (∀ i env o id step q, p.next i = some o → o.report = some (id, step) →
        holdsTask p i id = false → (system n).step p (i, env) = some q →
        q.store.tasks = p.store.tasks) ∧ FailedNameStages p := by
  intro h
  have hNames := (h 3 demoSvc crashAndReclaim (pipelineQueued false) goesOnAfterFailure _
    (by decide) rfl).2
  revert hNames
  decide

end Richter.Lessons
