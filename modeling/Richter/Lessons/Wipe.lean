import Richter.Lessons.Accept

/-! Whether an executor can still write after the content of its lesson was deleted.  The deletion
removes the task's row, which only the next heartbeat finds out; until then the executor runs on,
and its writes do not look at the row. -/

namespace Richter.Lessons

open Lib
open TaskQueue (Task)

/-- The operation writes a transcript, segments, chunks or interactions. -/
def Op.writesContent : Op → Bool
  | .saveTranscript .. | .saveSegments .. | .saveChunkTranscript .. | .pg (.saveChunks ..)
  | .pg (.saveInteractionsForChunk ..) => true
  | _ => false

/-- The task that a worker has claimed. -/
def claimedTask (h : History) : Option Task :=
  h.findSome? fun
    | ⟨.pg (.claimNextInqueuedTask ..), .ok t⟩ => some t
    | _ => none

def Party.isWorker : Party → Bool
  | .worker .. => true
  | _ => false

section Executors

variable {n : Nat} (s : AiSvc) (party : Fin n → Party) (p : System n) (lessonId : UUID) (i : Fin n)

/-- The worker has claimed a task of the lesson. -/
def executing : Bool :=
  (party i).isWorker && (claimedTask (p.hist i)).any fun t =>
    taskLesson s t.taskType t.inputPayload = .ok lessonId

/-- The worker has returned, or it is at its last operations. -/
def woundUp : Bool := (p.next i).all Op.windsUp

/-- All tasks of a lesson are deleted only when those that have claimed one are at their end. -/
def wipesFindNoWork (a : Fin n × Env) : Bool :=
  ((p.next a.1).bind Op.wipes).all fun lessonId =>
    decide (∀ i, executing s party p lessonId i = true → woundUp p i = true)

end Executors

/-- After the first of the last operations come only such. -/
def EndsTask (h : History) (o : Op) : Prop :=
  (∃ e ∈ h, e.op.windsUp = true) → o.windsUp = true

/-- None of the last operations has been performed. -/
def AtWork (h : History) : Prop := ∀ e ∈ h, e.op.windsUp = false

theorem not_windsUp_of_working {id : UUID} {o : Op} (h : o.working id) : o.windsUp = false := by
  cases o with
  | pg q => cases q <;> first | rfl | cases h
  | unixNow => cases h
  | _ => rfl

theorem not_writesContent_of_windsUp {o : Op} (h : o.windsUp = true) :
    o.writesContent = false := by
  unfold Op.windsUp at h
  split at h
  · rfl
  · rfl
  · rfl
  · cases h

theorem AtWork.endsTask {h : History} (hAt : AtWork h) (o : Op) : EndsTask h o := by
  rintro ⟨e, he, hUp⟩
  rw [hAt e he] at hUp
  cases hUp

theorem AtWork.concat {h : History} (hAt : AtWork h) {o : Op} (ho : o.windsUp = false)
    (r : o.Resp) : AtWork (h ++ [⟨o, r⟩]) := by
  intro e he
  rcases List.mem_append.mp he with he | he
  · exact hAt e he
  · rw [List.mem_singleton.mp he]
    exact ho

theorem finishTask_endsTask (workerID : UUID) (task : Task)
    (result : Except Fail TaskQueue.Bytes) (h : History) :
    (finishTask workerID task result).Along EndsTask (fun _ _ => True) h := by
  unfold finishTask
  cases result with
  | error e =>
    dsimp only
    split
    · trivial
    · exact ⟨fun _ => rfl, fun _ _ _ => trivial⟩
  | ok output => exact ⟨fun _ => rfl, fun _ _ _ => trivial⟩

theorem stamped_endsTask {taskID : UUID} {work : Exec Unit}
    (hWork : Performs (·.working taskID) work)
    (output : Nat → TaskQueue.Bytes) {h : History} (hAt : AtWork h) :
    (stamped work output).run.Along EndsTask (fun _ _ => True) h := by
  have hRun : work.run.Along EndsTask (fun _ h => AtWork h) h :=
    Prog.Performs.ensures hWork (fun h o _ hAt => hAt.endsTask o)
      (fun o h r h' ho hAt hNext => hNext ▸ hAt.concat (not_windsUp_of_working ho) r) hAt
  refine (Prog.ensures_bind (p := work.run) _).mpr (Prog.Ensures.mono hRun (fun _ _ => id) ?_)
  rintro (e | _) h hAt
  · trivial
  · exact ⟨hAt.endsTask _, fun _ _ _ => trivial⟩

/-- A worker's operations after the first of the last ones are such too. -/
theorem claimAndRun_endsTask (s : AiSvc) (workerID : UUID) (allowedTypes : List String) :
    (claimAndRun s workerID allowedTypes).Along EndsTask (fun _ _ => True) [] := by
  have hStart : AtWork [] := by
    intro e he
    cases he
  unfold claimAndRun
  refine ⟨hStart.endsTask _, ?_⟩
  rintro (e | task) h rfl
  · trivial
  · have hClaimed :
        AtWork ([] ++ [⟨.pg (.claimNextInqueuedTask workerID allowedTypes), .ok task⟩]) :=
      hStart.concat rfl _
    show (runTask s workerID task).Along _ _ _
    unfold runTask
    split
    · exact ⟨hClaimed.endsTask _, fun _ _ _ => trivial⟩
    · next execute hLookup =>
      obtain ⟨work, output, rfl, hWork⟩ := lookup_performs hLookup
      exact (Prog.ensures_bind _).mpr (Prog.Ensures.mono (stamped_endsTask hWork output hClaimed)
        (fun _ _ => id) fun result h _ => finishTask_endsTask workerID task result h)

theorem Party.endsTask (s : AiSvc) (party : Party) :
    (party.program s).Along (fun h o => party.isWorker = true → EndsTask h o)
      (fun _ _ => True) [] := by
  cases hWorker : party.isWorker with
  | true =>
    cases party with
    | worker workerId allowedTypes =>
      have hClaim : (claimAndRun s workerId allowedTypes).Along
          (fun h o => true = true → EndsTask h o) (fun _ _ => True) [] :=
        Prog.Ensures.mono (claimAndRun_endsTask s workerId allowedTypes) (fun _ _ hEnds _ => hEnds)
          fun _ _ => id
      exact (Prog.ensures_bind _).mpr hClaim
    | _ => cases hWorker
  | false => exact Prog.ensures_true _ fun _ _ hNot => nomatch hNot

section Runs

variable {n : Nat} {s : AiSvc} {party : Fin n → Party} {p q : System n} {i : Fin n}

/-- The worker is past the start of its last operations. -/
def Ending (p : System n) (i : Fin n) : Prop :=
  woundUp p i = true ∨ ∃ e ∈ p.hist i, e.op.windsUp = true

theorem Ending.next_windsUp (h : Ending p i) {o : Op} (hNext : p.next i = some o)
    (hEnds : EndsTask (p.hist i) o) : o.windsUp = true := by
  rcases h with hUp | hHist
  · simpa [woundUp, hNext] using hUp
  · exact hEnds hHist

theorem step_ending {j : Fin n} {env : Env} {o : Op} {r : o.Resp} (hNext : p.next j = some o)
    (hEnds : j = i → EndsTask (p.hist j) o) (hStep : (system n).step p (j, env) = some q)
    (hHist : q.hist = Function.update p.hist j (p.hist j ++ [⟨o, r⟩])) (h : Ending p i) :
    Ending q i := by
  by_cases hj : j = i
  · subst hj
    refine .inr ⟨⟨o, r⟩, ?_, h.next_windsUp hNext (hEnds rfl)⟩
    rw [hHist, Function.update_self]
    exact List.mem_append_right _ (List.mem_singleton_self _)
  · have hThread : q.thread i = p.thread i := by
      obtain ⟨o', k, r', s', _, _, rfl⟩ := Pool.step_cases hStep
      exact Function.update_of_ne (Ne.symm hj) _ _
    have hNextI : q.next i = p.next i := by
      unfold Pool.next
      rw [hThread]
    have hHistI : q.hist i = p.hist i := by
      unfold Pool.hist
      rw [hThread]
    unfold Ending woundUp at h ⊢
    rw [hNextI, hHistI]
    exact h

/-- In every run in which the tasks of a lesson are deleted only when those who have claimed one are
at their end: once they are deleted, a worker that had claimed a task of the lesson before does not
come to write content. -/
theorem stale_executors_stop {store : Store} {before after : List (Fin n × Env)} {p p' q : System n}
    {j : Fin n} {env : Env} {o o' : Op} {lessonId : UUID}
    (hBefore : (system n).Runs (fun p a => wipesFindNoWork s party p a = true)
      (.start s party store) before p)
    (hWipe : wipesFindNoWork s party p (j, env) = true) (hNext : p.next j = some o)
    (hWipes : o.wipes = some lessonId) (hStep : (system n).step p (j, env) = some p')
    (hAfter : (system n).Runs (fun p a => wipesFindNoWork s party p a = true) p' after q)
    (hExecuting : executing s party p lessonId i = true) (hNext' : q.next i = some o') :
    o'.writesContent = false := by
  have hWorker : (party i).isWorker = true := by
    unfold executing at hExecuting
    exact (Bool.and_eq_true_iff.mp hExecuting).1
  have hUp : woundUp p i = true := by
    have hAll : ∀ i, executing s party p lessonId i = true → woundUp p i = true := by
      simpa [wipesFindNoWork, hNext, hWipes] using hWipe
    exact hAll i hExecuting
  have hAlong := (Pool.runs_invariant (I := fun _ _ => True)
    (fun _ _ _ _ _ _ _ _ _ _ _ => trivial) hBefore (fun i => (party i).endsTask s) trivial).2
  have hRun : (system n).Runs (fun _ _ => True) p ((j, env) :: after) q :=
    .cons trivial hStep (hAfter.mono fun _ _ _ => trivial)
  have hStepEnding : ∀ (p : System n) (a : Fin n × Env) (q : System n), True →
      (system n).step p a = some q → (Ending p i ∧ ∀ i, (p.thread i).prog.Along
        (fun h o => (party i).isWorker = true → EndsTask h o) (fun _ _ => True) (p.hist i)) →
      Ending q i ∧ ∀ i, (q.thread i).prog.Along
        (fun h o => (party i).isWorker = true → EndsTask h o) (fun _ _ => True) (q.hist i) := by
    rintro p ⟨j, env⟩ q _ hStep ⟨hEnding, hAlong⟩
    obtain ⟨o, r, hNext, hEnds, _, hHist, hAlong'⟩ := Pool.step_along hStep hAlong
    exact ⟨step_ending hNext (fun hj => hEnds (hj ▸ hWorker)) hStep hHist hEnding, hAlong'⟩
  obtain ⟨hEnding, hAlong'⟩ := hRun.invariant hStepEnding ⟨.inl hUp, hAlong⟩
  have hProg := hAlong' i
  unfold Pool.next at hNext'
  split at hNext'
  · cases hNext'
  · next o'' k hOp =>
    cases hNext'
    rw [hOp] at hProg
    exact not_writesContent_of_windsUp
      (hEnding.next_windsUp (by simp [Pool.next, hOp]) (hProg.1 hWorker))

end Runs

/-- A chunk task of the lesson, which has the given transcript. -/
def chunkQueued (transcript : Option String) : Store :=
  { lecture with
    tasks := .ofList [TaskQueue.InsertTaskParams.row ⟨100, 10, none, "chunk",
      some (unaryProto.marshalInput "chunk" { lessonId := some 10 }), 20⟩ 1 0]
    transcripts := fun _ => transcript }

/-- A goroutine, and a teacher who replaces the video. -/
def chunkAndReplace : Fin 2 → Party
  | 0 => .worker 7 allKinds
  | 1 => .updateLessonVideo (.ok 20) ⟨10, "lessons/10/video.mp4", 60⟩

def proposing : Env := { proposals := .ok [⟨0, 60, "old"⟩], newId := fun k => 300 + k }

def found : Env := { stat := true }

/-- The task is claimed and finds no transcript, and then the video is about to be replaced. -/
def failsFirst : List (Fin 2 × Env) :=
  schedule 1 [(0, calm), (0, calm), (1, calm), (1, found), (1, calm)]

theorem stale_executors_stop_failsFirst :
    ∃ p, (system 2).run (.start demoSvc chunkAndReplace (chunkQueued none)) failsFirst = some p ∧
      ∃ p', (system 2).step p (1, calm) = some p' ∧
        ∃ o, p'.next 0 = some o ∧ o.writesContent = false := by
  have hSome : (((system 2).restrict fun p a =>
      wipesFindNoWork demoSvc chunkAndReplace p a = true).run
        (.start demoSvc chunkAndReplace (chunkQueued none)) failsFirst).any (fun p =>
        wipesFindNoWork demoSvc chunkAndReplace p (1, calm) &&
          executing demoSvc chunkAndReplace p 10 0 &&
          decide ((p.next 1).bind Op.wipes = some 10) &&
          ((system 2).step p (1, calm)).any fun p' => (p'.next 0).isSome) = true := by
    decide +kernel
  obtain ⟨p, hRun, hEnd⟩ := (Option.any_eq_true _ _).mp hSome
  simp only [Bool.and_eq_true, decide_eq_true_eq] at hEnd
  obtain ⟨⟨⟨hWipe, hExecuting⟩, hWipes⟩, hThen⟩ := hEnd
  obtain ⟨o, hNext, hLesson⟩ := Option.bind_eq_some_iff.mp hWipes
  obtain ⟨p', hStep, hIsSome⟩ := (Option.any_eq_true _ _).mp hThen
  obtain ⟨o', hNext'⟩ := Option.isSome_iff_exists.mp hIsSome
  have hRuns := Machine.Runs.of_restrict hRun
  exact ⟨p, hRuns.run, p', hStep, o', hNext', stale_executors_stop hRuns hWipe hNext hLesson hStep
    (.nil p') hExecuting hNext'⟩

/-- The task's executor has the proposals of the model when the video is about to be replaced. -/
def proposesFirst : List (Fin 2 × Env) :=
  schedule 1 (List.replicate 7 (0, proposing) ++ [(1, calm), (1, found), (1, calm)])

/-- After the content was deleted, the executor comes to save the chunks of the old video. -/
theorem stale_executor_saves_chunks :
    ¬ ∀ (n : Nat) (s : AiSvc) (party : Fin n → Party) (store : Store)
      (before after : List (Fin n × Env)) (j i : Fin n) (env : Env) (lessonId : UUID)
      (p p' q : System n), (system n).run (.start s party store) before = some p →
      (p.next j).bind Op.wipes = some lessonId → (system n).step p (j, env) = some p' →
      (system n).run p' after = some q → executing s party p lessonId i = true →
      (q.next i).all (fun o => !o.writesContent) = true := by
  intro h
  have hSome : ((system 2).run (.start demoSvc chunkAndReplace (chunkQueued (some "xin chao")))
      proposesFirst).any (fun p => decide ((p.next 1).bind Op.wipes = some 10) &&
        executing demoSvc chunkAndReplace p 10 0 && ((system 2).step p (1, calm)).any fun p' =>
          ((system 2).run p' [(0, proposing)]).any fun q =>
            !(q.next 0).all fun o => !o.writesContent) = true := by
    decide +kernel
  obtain ⟨p, hRun, hEnd⟩ := (Option.any_eq_true _ _).mp hSome
  simp only [Bool.and_eq_true, decide_eq_true_eq] at hEnd
  obtain ⟨⟨hWipes, hExecuting⟩, hThen⟩ := hEnd
  obtain ⟨p', hStep, hThen⟩ := (Option.any_eq_true _ _).mp hThen
  obtain ⟨q, hAfter, hWrites⟩ := (Option.any_eq_true _ _).mp hThen
  have hQuiet := h 2 demoSvc chunkAndReplace (chunkQueued (some "xin chao")) proposesFirst
    [(0, proposing)] 1 0 calm 10 p p' q hRun hWipes hStep hAfter hExecuting
  rw [hQuiet] at hWrites
  cases hWrites

end Richter.Lessons
