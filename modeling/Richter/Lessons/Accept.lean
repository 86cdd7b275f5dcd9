import Richter.Lessons.Working

/-! Whether a task that was accepted can get lost.  The row stays until it is terminal, unless a
transcribe stage deletes it: `DeleteTasksForLessonExcept` does not look at the status. -/

namespace Richter.Lessons

open Lib
open TaskQueue (Task TaskTable)
open Handler (orConnectDBError require)

/-- The task's row is there, and inqueued or processing. -/
def activeAt (t : TaskTable) (id : UUID) : Bool := (t.find id).any fun r => r.status.active

def terminalAt (t : TaskTable) (id : UUID) : Bool := (t.find id).any fun r => r.status.terminal

/-- The other tasks that a transcribe stage deletes are terminal. -/
def deletesFinished {n : Nat} (p : System n) (a : Fin n × Env) : Bool :=
  match p.next a.1 with
  | some (.pg (.deleteTasksForLessonExcept lessonId id)) =>
    p.store.tasks.rows.all fun r => r.lessonId ≠ lessonId || r.id = id || r.status.terminal
  | _ => true

/-- The task that a statement of `StartLessonTask` has inserted, or found active. -/
def acceptedId : Prog.Event Op Op.Resp → Option UUID
  | ⟨.pg (.insertTask ..), .ok t⟩ => some t.id
  | ⟨.pg (.getActiveTask ..), .ok t⟩ => some t.id
  | _ => none

def Accepted (h : History) (id : UUID) : Prop := ∃ e ∈ h, acceptedId e = some id

instance (h : History) (id : UUID) : Decidable (Accepted h id) :=
  inferInstanceAs (Decidable (∃ e ∈ h, acceptedId e = some id))

theorem Accepted.append {h : History} {id : UUID} (hAcc : Accepted h id) (l : History) :
    Accepted (h ++ l) id := by
  obtain ⟨e, he, hId⟩ := hAcc
  exact ⟨e, List.mem_append_left l he, hId⟩

theorem accepted_concat {h : History} {e : Prog.Event Op Op.Resp} {id : UUID} :
    Accepted (h ++ [e]) id ↔ Accepted h id ∨ acceptedId e = some id := by
  simp [Accepted, or_and_right, exists_or]

section Rows

variable {t : TaskTable} {id : UUID}

theorem activeAt_iff : activeAt t id = true ↔ ∃ r, t.find id = some r ∧ r.status.active = true := by
  simp [activeAt, Option.any_eq_true]

/-- A statement of the queue leaves an active row active, or finishes it. -/
theorem activeAt_exec (stmt : TaskQueue.Stmt) (h : activeAt t id = true) :
    activeAt (TaskQueue.exec t stmt) id = true ∨ terminalAt (TaskQueue.exec t stmt) id = true := by
  obtain ⟨r, hr, _⟩ := activeAt_iff.mp h
  obtain ⟨r', hr', _⟩ := TaskQueue.exec_rowStep stmt hr
  unfold activeAt terminalAt
  rw [hr', Option.any_some, Option.any_some, TaskQueue.TaskStatus.active_eq_not_terminal]
  cases r'.status.terminal <;> simp

/-- An active row is not among rows that are all terminal. -/
theorem activeAt_deleteTasksForLessonExcept {lessonId kept : UUID}
    (hAll : (t.rows.all fun r => r.lessonId ≠ lessonId || r.id = kept || r.status.terminal) = true)
    (h : activeAt t id = true) :
    activeAt (TaskQueue.deleteTasksForLessonExcept lessonId kept t) id = true := by
  obtain ⟨r, hr, hActive⟩ := activeAt_iff.mp h
  have hMem := (Table.find_eq_some_iff.mp hr).1
  have hNot := List.all_eq_true.mp hAll r hMem
  rw [TaskQueue.TaskStatus.active_eq_not_terminal, Bool.not_eq_true'] at hActive
  refine activeAt_iff.mpr ⟨r, ?_, by simp [hActive]⟩
  rw [TaskQueue.deleteTasksForLessonExcept, Table.find_delete, hr, Option.filter_eq_some_iff]
  refine ⟨rfl, ?_⟩
  simp only [hActive, Bool.or_false, Bool.or_eq_true, decide_eq_true_eq] at hNot
  rcases hNot with hLesson | hKept
  · simp [hLesson]
  · simp [hKept]

end Rows

/-- A task that is accepted in a step is active after it. -/
theorem activeAt_of_accepted {i : Nat} {env : Env} {o : Op} {s s' : Store} {r : o.Resp} {id : UUID}
    (hExec : exec i env o s = some (r, s')) (h : acceptedId ⟨o, r⟩ = some id) :
    activeAt s'.tasks id = true := by
  unfold acceptedId at h
  split at h
  · next lessonId chunkId taskType inputPayload createdBy t hEvent =>
    cases hEvent
    cases h
    obtain ⟨e, hErr, _⟩ | ⟨_, hQuery⟩ := exec_pg hExec
    · cases hErr
    · unfold Query.exec at hQuery
      dsimp only at hQuery
      split at hQuery
      · split at hQuery
        · cases hQuery
        · split at hQuery
          · cases hQuery
          · next tasks hInsert =>
            cases hQuery
            exact activeAt_iff.mpr ⟨_, TaskQueue.find_insertTask hInsert, rfl⟩
      · cases hQuery
  · next lessonId taskType chunkId t hEvent =>
    cases hEvent
    cases h
    obtain ⟨e, hErr, _⟩ | ⟨_, hQuery⟩ := exec_pg hExec
    · cases hErr
    · unfold Query.exec at hQuery
      dsimp only at hQuery
      split at hQuery
      · cases hQuery
      · simp only [Option.some.injEq, Prod.mk.injEq, one_eq_ok] at hQuery
        obtain ⟨hActive, rfl⟩ := hQuery
        have hMem := List.mem_of_find?_eq_some hActive
        have hStatus := List.find?_some hActive
        refine activeAt_iff.mpr ⟨t, Table.mem_rows_iff.mp hMem, ?_⟩
        simp only [Bool.and_eq_true] at hStatus
        exact hStatus.2
  · cases h

/-- What each operation of the programs is, and what a returned task comes from. -/
abbrev KeepsTasks (_ : History) (o : Op) : Prop := o.wipes = none

abbrev Handler.Meets {α : Type} (x : Handler α) (ok : α → History → Prop) (h : History) : Prop :=
  Prog.Meets (fun o h r h' => h' = h ++ [⟨o, r⟩]) KeepsTasks x ok (fun _ => True) h

section Handlers

variable {α β : Type} {h : History} {ok : β → History → Prop}

/-- A handler that only performs operations of requests comes before the rest. -/
theorem meets_serves_bind {x : Handler α} (hx : x.Serves) {f : α → Handler β}
    (hf : ∀ a h, (f a).Meets ok h) : (x >>= f).Meets ok h := by
  refine (Prog.meets_bind f).mpr (Prog.Meets.mono
    (Prog.Performs.meets hx (I := fun _ => True) (fun _ o ho _ => wipes_eq_none (.inr ho))
      (fun _ _ _ _ _ _ _ => trivial) trivial) (fun a h' _ => hf a h') fun _ _ => trivial)

theorem meets_query_bind {q : Query} (hq : q.byRequest = true)
    {f : Except DbError q.Result → Handler β}
    (hf : ∀ r, (f r).Meets ok (h ++ [⟨.pg q, r⟩])) : (Handler.query q >>= f).Meets ok h :=
  (Prog.meets_perform_bind _).mpr ⟨wipes_eq_none (.inr hq), fun r _ hNext => hNext ▸ hf r⟩

theorem startInTx_meets (s : AiSvc) (caller : Except Error UUID) (req : StartLessonTaskRequest)
    (taskType : String) (userID : UUID) (chunkID : Option UUID) :
    (startInTx s caller req taskType userID chunkID).Meets (fun t h => Accepted h t.id) h := by
  unfold startInTx
  refine meets_query_bind rfl ?_
  rintro (e | activeTask)
  · refine meets_serves_bind (requireUnderCap_reads userID).serves fun _ _ =>
      meets_serves_bind (preflightLessonTask_reads caller req.kind req.lessonId).serves fun _ _ =>
      meets_serves_bind (performs_require _) fun _ _ => meets_query_bind rfl ?_
    rintro (e | t)
    · exact trivial
    · exact accepted_concat.mpr (.inr rfl)
  · refine meets_query_bind rfl ?_
    rintro (e | _)
    · exact trivial
    · exact (accepted_concat.mpr (.inr rfl)).append _

theorem startLessonTask_meets (s : AiSvc) (caller : Except Error UUID)
    (req : StartLessonTaskRequest) :
    (startLessonTask s caller req).Meets (fun t h => Accepted h t.id) h := by
  unfold startLessonTask
  refine meets_serves_bind (performs_require _) fun taskType _ =>
    meets_serves_bind (performs_orConnectDBError rfl) fun _ _ =>
    meets_serves_bind (performs_require caller) fun userID _ =>
    meets_serves_bind (requestedChunk_reads req).serves fun chunkID _ =>
    meets_serves_bind (performs_orConnectDBError rfl) fun _ _ => (Prog.meets_bind _).mpr
      (Prog.meets_lift.mpr (Prog.Ensures.mono
        (startInTx_meets s caller req taskType userID chunkID) (fun _ _ => id) ?_))
  rintro (e | t) h hAcc
  · exact meets_serves_bind (Handler.performs_ignore rfl) fun _ _ => trivial
  · exact hAcc

end Handlers

/-- A reply that a task was started names a task that was accepted. -/
def Replies (reply : Reply) (h : History) : Prop :=
  ∀ t, reply = .started (.ok t) → Accepted h t.id

theorem Party.along (s : AiSvc) {party : Party} (hWipes : party.wipes = false) :
    (party.program s).Along KeepsTasks Replies [] := by
  have hOther : ∀ {α : Type} (p : Prog Op Op.Resp α) (f : α → Reply),
      (p >>= fun a => .ret (f a)).Performs (fun o => o.wipes = none) →
      (∀ a t, f a ≠ .started (.ok t)) →
      (p >>= fun a => .ret (f a)).Along KeepsTasks Replies [] := by
    intro α p f hPerforms hf
    have hp : p.Performs fun o => o.wipes = none := hPerforms.of_bind
    refine (Prog.ensures_bind _).mpr (Prog.Ensures.mono
      (hp.ensures (I := fun _ => True) (fun _ o ho _ => ho) (fun _ _ _ _ _ _ _ => trivial) trivial)
      (fun _ _ => id) fun a h _ t ht => absurd ht (hf a t))
  have hPerforms := Party.performs_no_wipe s hWipes
  cases party with
  | startLessonTask caller req =>
    refine (Prog.ensures_bind _).mpr (Prog.Ensures.mono (startLessonTask_meets s caller req)
      (fun _ _ => id) ?_)
    rintro (e | t) h hAcc t' ht
    · cases ht
    · cases ht
      exact hAcc
  | worker workerId allowedTypes => exact hOther _ (fun _ => .done) hPerforms (fun _ _ => nofun)
  | heartbeat => exact hOther _ (fun _ => .done) hPerforms (fun _ _ => nofun)
  | reapStaleProcessingBatch => exact hOther _ (fun _ => .done) hPerforms (fun _ _ => nofun)
  | requeueOrphanedInqueuedBatch => exact hOther _ (fun _ => .done) hPerforms (fun _ _ => nofun)
  | cancelLessonTask => exact hOther _ .task hPerforms (fun _ _ => nofun)
  | updateLessonVideo => cases hWipes
  | resetLessonContent => cases hWipes

/-- Every accepted task is active, or it was terminal in a state, out of `V`, since it was
accepted. -/
def Stays {n : Nat} (V : System n → Prop) (p : System n) : Prop :=
  ∀ i id, Accepted (p.hist i) id → activeAt p.store.tasks id = true ∨
    ∃ u, V u ∧ Accepted (u.hist i) id ∧ terminalAt u.store.tasks id = true

theorem step_stays {n : Nat} {V : System n → Prop} {p q : System n} {i : Fin n} {env : Env} {o : Op}
    {r : o.Resp} (hG : deletesFinished p (i, env) = true) (hNext : p.next i = some o)
    (hKeeps : o.wipes = none) (hExec : exec i env o p.store = some (r, q.store))
    (hHist : q.hist = Function.update p.hist i (p.hist i ++ [⟨o, r⟩])) (h : Stays V p) :
    Stays (fun u => V u ∨ u = q) q := by
  intro j id hAcc
  have hOld : Accepted (p.hist j) id → activeAt q.store.tasks id = true ∨
      ∃ u, (V u ∨ u = q) ∧ Accepted (u.hist j) id ∧ terminalAt u.store.tasks id = true := by
    intro hBefore
    obtain hActive | ⟨u, hu, hAccU, hTerm⟩ := h j id hBefore
    · obtain hSame | ⟨_, stmt, _, _, hTasks⟩ | ⟨_, hWipe, _⟩ | ⟨lessonId, kept, rfl, hTasks⟩ :=
        exec_tasks hExec
      · exact .inl (hSame ▸ hActive)
      · rw [hTasks]
        obtain hActive' | hTerm := activeAt_exec stmt hActive
        · exact .inl hActive'
        · exact .inr ⟨q, .inr rfl, hAcc, hTasks ▸ hTerm⟩
      · rw [hKeeps] at hWipe
        cases hWipe
      · have hAll : (p.store.tasks.rows.all fun r =>
            r.lessonId ≠ lessonId || r.id = kept || r.status.terminal) = true := by
          simpa [deletesFinished, hNext] using hG
        rw [hTasks]
        exact .inl (activeAt_deleteTasksForLessonExcept hAll hActive)
    · exact .inr ⟨u, .inl hu, hAccU, hTerm⟩
  rw [hHist] at hAcc
  by_cases hj : j = i
  · subst hj
    rw [Function.update_self, accepted_concat] at hAcc
    rcases hAcc with hBefore | hNew
    · exact hOld hBefore
    · exact .inl (activeAt_of_accepted hExec hNew)
  · rw [Function.update_of_ne hj] at hAcc
    exact hOld hAcc

/-- Without requests that delete the content of a lesson, in every run in which a transcribe stage
deletes terminal tasks only, a task that `StartLessonTask` has returned is active, or it has been
terminal since it was accepted. -/
theorem accepted_tasks_stay {n : Nat} {s : AiSvc} {party : Fin n → Party} {store : Store}
    {steps : List (Fin n × Env)} {q : System n} (hParties : ∀ i, (party i).wipes = false)
    (hRun : (system n).Runs (fun p a => deletesFinished p a = true) (.start s party store) steps q)
    {i : Fin n} {t : LessonTask} (hReply : (q.thread i).prog = .ret (.started (.ok t))) :
    activeAt q.store.tasks t.id = true ∨
      ∃ p ∈ (system n).trace (.start s party store) steps,
        Accepted (p.hist i) t.id ∧ terminalAt p.store.tasks t.id = true := by
  have hInv := hRun.invariant_trace (V := fun _ => False) (I := fun V p => Stays V p ∧
    ∀ i, (p.thread i).prog.Along KeepsTasks Replies (p.hist i)) ?_ ?_ ?_
  · obtain ⟨hStays, hAlong⟩ := hInv
    have hReplies := hAlong i
    rw [hReply] at hReplies
    obtain hActive | ⟨p, hp | hp, hAcc, hTerm⟩ := hStays i t.id (hReplies t rfl)
    · exact .inl hActive
    · exact hp.elim
    · exact .inr ⟨p, hp, hAcc, hTerm⟩
  · rintro V W p hVW ⟨hStays, hAlong⟩
    refine ⟨fun i id hAcc => ?_, hAlong⟩
    obtain hActive | ⟨u, hu, hTerm⟩ := hStays i id hAcc
    · exact .inl hActive
    · exact .inr ⟨u, hVW u hu, hTerm⟩
  · rintro V p ⟨i, env⟩ q hG hStep ⟨hStays, hAlong⟩
    obtain ⟨o, r, hNext, hKeeps, hExec, hHist, hAlong'⟩ :=
      Pool.step_along (P := fun _ => KeepsTasks) (Q := fun _ => Replies) hStep hAlong
    exact ⟨step_stays hG hNext hKeeps hExec hHist hStays, hAlong'⟩
  · refine ⟨?_, fun i => (party i).along s (hParties i)⟩
    rintro i id ⟨e, he, _⟩
    cases he

/-- A service with the unary protocol and no cap. -/
def demoSvc : AiSvc where
  chunksLimit := 5
  interactionsLimit := 5
  lessonOpsLimit := 5
  listLimit := 5
  maxActivePerUser := 0
  toLower := id
  proto := unaryProto

/-- A lesson with a video and a chunk, and no tasks. -/
def lecture : Store where
  lessons := .ofList [⟨10, some "lessons/10/video.mp4", none, "vi", "vi"⟩]
  tasks := .empty
  content := ⟨.ofList [⟨30, 10, 0, 0, 60, "intro", 1⟩], .empty, nofun⟩
  attempts := []
  analyses := []
  transcripts := fun _ => none
  segments := fun _ => none
  chunkTranscripts := fun _ => none
  analysisLocks := fun _ _ => false
  lessonLock := fun _ => none
  txAborted := fun _ => false
  cancelled := fun _ => false
  claimant := fun _ => none
  batches := []

def calm : Env := {}

def allKinds : List String := ["transcribe", "chunk", "quiz_gen", "pipeline_run"]

/-- The steps of a system of `n + 1` callers, by their numbers. -/
def schedule (n : Nat) (steps : List (Nat × Env)) : List (Fin (n + 1) × Env) :=
  steps.map fun step => (Fin.ofNat (n + 1) step.1, step.2)

/-- A teacher starts a quiz and then a transcription, and two goroutines look for tasks. -/
def quizThenTranscribe : Fin 4 → Party
  | 0 => .startLessonTask (.ok 20) ⟨10, .generateInteractions, none⟩
  | 1 => .startLessonTask (.ok 20) ⟨10, .extractTranscript, none⟩
  | 2 => .worker 7 allKinds
  | 3 => .worker 7 allKinds

/-- The quiz is accepted and claimed. -/
def quizAccepted : List (Fin 4 × Env) :=
  schedule 3 (List.replicate 5 (0, { newId := fun _ => 100 }) ++ [(2, calm)])

theorem accepted_tasks_stay_quizAccepted :
    ∃ q, (system 4).run (.start demoSvc quizThenTranscribe lecture) quizAccepted = some q ∧
      ∃ t, (q.thread 0).prog = .ret (.started (.ok t)) ∧ (activeAt q.store.tasks t.id = true ∨
        ∃ p ∈ (system 4).trace (.start demoSvc quizThenTranscribe lecture) quizAccepted,
          Accepted (p.hist 0) t.id ∧ terminalAt p.store.tasks t.id = true) :=
  ⟨_, rfl, _, rfl, @accepted_tasks_stay 4 demoSvc quizThenTranscribe lecture quizAccepted _
    (by decide) (Machine.Runs.of_restrict rfl) 0 _ rfl⟩

/-- The transcription is accepted and claimed too, and gets to the deletion of the other tasks. -/
def transcribeOverQuiz : List (Fin 4 × Env) :=
  quizAccepted ++ schedule 3 (List.replicate 7 (1, { newId := fun _ => 200, stat := true }) ++
    List.replicate 3 (3, calm))

/-- The row of the quiz is then gone, while it was processing. -/
theorem transcribe_deletes_accepted_task :
    ¬ ∀ (n : Nat) (s : AiSvc) (party : Fin n → Party) (store : Store) (steps : List (Fin n × Env))
      (q : System n), (∀ i, (party i).wipes = false) →
      (system n).run (.start s party store) steps = some q → ∀ (i : Fin n) (t : LessonTask),
      (q.thread i).prog = .ret (.started (.ok t)) → activeAt q.store.tasks t.id = true ∨
        ∃ p ∈ (system n).trace (.start s party store) steps,
          Accepted (p.hist i) t.id ∧ terminalAt p.store.tasks t.id = true := by
  intro h
  have hQuiz := h 4 demoSvc quizThenTranscribe lecture transcribeOverQuiz _ (by decide) rfl 0 _ rfl
  revert hQuiz
  decide

end Richter.Lessons
