import Richter.Lessons.Accept
import Richter.Lessons.Attempt

/-! Attempts at one `pipeline_run` task, one after the other: an attempt may stop between any two of
its operations, and the next claim goes on from the output that the row has then. -/

namespace Richter.Lessons

open Lib
open TaskQueue (Bytes Task)

/-- The operation is one by which tasks are queued, claimed, given back or cancelled. -/
def Op.schedules : Op → Bool
  | .pg (.insertTask ..) | .pg (.claimNextInqueuedTask ..) | .pg (.heartbeatTask ..)
  | .pg (.reapStaleProcessingBatch ..) | .pg (.requeueOrphanedInqueuedBatch ..)
  | .pg (.cancelTask _) => true
  | _ => false

/-- The task's row, and the chunks of the lesson with their interactions. -/
def lessonView (taskId lessonId : UUID) (st : Store) :
    Option Task × List LessonTranscriptChunk × List LessonInteraction :=
  (st.tasks.find taskId, chunksOf lessonId st.content, rowsOf lessonId st.content)

/-- If the operation is the read of all interactions, it does not fail and its limit suffices. -/
def readsInteractions (s : AiSvc) (i : Nat) (env : Env) (st : Store) : Op → Bool
  | .pg (.listLessonInteractions lessonId limit) =>
    limit ≠ s.interactionsLimit || (env.failure = none && !(st.touch i env).cancelled i &&
      decide ((st.content.children.rows.filter fun r => r.lessonId = lessonId).length ≤ limit))
  | _ => true

/-- The step is one of the executor that has claimed the task last, or it moves the queue, or it
leaves the task and the lesson as they are. -/
def undisturbed {n : Nat} (s : AiSvc) (taskId lessonId : UUID) (p : System n) (a : Fin n × Env) :
    Bool :=
  (p.next a.1).all fun o =>
    if p.store.claimant taskId = some a.1.val then readsInteractions s a.1.val a.2 p.store o
    else o.schedules || ((system n).step p a).all fun q =>
      lessonView taskId lessonId q.store = lessonView taskId lessonId p.store

/-- The row is that of a `pipeline_run` of the lesson. -/
structure PipelineOf (s : AiSvc) (lessonId : UUID) (t : Task) : Prop where
  taskType : t.taskType = "pipeline_run"
  lesson : taskLesson s t.taskType t.inputPayload = .ok lessonId

/-- Each of the chunks has no interactions, or those of one batch. -/
structure Intact (lessonId : UUID) (batches : List Batch) (cs : List LessonTranscriptChunk)
    (rs : List LessonInteraction) : Prop where
  lesson : ∀ r ∈ rs, r.lessonId = lessonId
  batch : ∀ c ∈ cs, (rs.filter fun r => r.chunkId = some c.id) = [] ∨
    ∃ b ∈ batches, b.chunkId = c.id ∧ b.rows ≠ [] ∧
      (rs.filter fun r => r.chunkId = some c.id) = b.rows

/-- What the attempt has learnt about the chunks and their interactions is so. -/
structure PipelineAttempt.Knows (s : AiSvc) (cs : List LessonTranscriptChunk)
    (rs : List LessonInteraction) (a : PipelineAttempt) : Prop where
  listed : ∀ l, a.listed = some l →
    l = (cs.insertionSort fun a b => a.orderIndex ≤ b.orderIndex).take s.chunksLimit
  empty : ∀ c ∈ cs, a.empty c.id = true → (rs.filter fun r => r.chunkId = some c.id) = []
  filled : ∀ c ∈ cs, a.filled c.id = true → (rs.filter fun r => r.chunkId = some c.id) ≠ []

/-- The row of the task, as the attempt knows it. -/
structure PipelineAttempt.Row (s : AiSvc) (lessonId : UUID) (low : Nat) (a : PipelineAttempt)
    (t : Task) : Prop where
  pipeline : PipelineOf s lessonId t
  low : low ≤ outputStage s t.outputPayload
  stage : outputStage s t.outputPayload ≤ a.stage
  chunked : 2 ≤ outputStage s t.outputPayload → a.chunked = true
  succeeded : t.status = .succeeded → a.ended = true ∧ a.chunked = true ∧ a.Covers

/-- The store agrees with what the attempt has learnt. -/
structure Tracks (s : AiSvc) (taskId lessonId : UUID) (low : Nat) (st : Store)
    (a : PipelineAttempt) : Prop where
  row : ∃ t, st.tasks.find taskId = some t ∧ a.Row s lessonId low t
  read : a.unread = false
  aborted : a.aborted = true → ∃ i, st.claimant taskId = some i ∧ st.cancelled i = true
  intact : a.chunked = true →
    Intact lessonId st.batches (chunksOf lessonId st.content) (rowsOf lessonId st.content)
  knows : a.chunked = true →
    a.Knows s (chunksOf lessonId st.content) (rowsOf lessonId st.content)

section Store

variable {i : Nat} {env : Env} {st st' : Store}

/-- The contexts that are done, and the record of claims and batches. -/
theorem exec_record {o : Op} {r : o.Resp} (h : exec i env o st = some (r, st')) :
    st'.cancelled = (st.touch i env).cancelled ∧ (∀ b ∈ st.batches, b ∈ st'.batches) ∧
      (o.claims = false → st'.claimant = st.claimant) := by
  cases o with
  | pg q =>
    obtain ⟨e, rfl, rfl⟩ | ⟨_, hQuery⟩ := exec_pg h
    · exact ⟨rfl, fun _ => id, fun _ => rfl⟩
    · cases q with
      | claimNextInqueuedTask =>
        unfold Query.exec at hQuery
        dsimp only at hQuery
        split at hQuery <;> cases hQuery <;> exact ⟨rfl, fun _ => id, nofun⟩
      | saveInteractionsForChunk =>
        unfold Query.exec at hQuery
        dsimp only at hQuery
        split at hQuery <;> cases hQuery
        · exact ⟨rfl, fun _ => id, fun _ => rfl⟩
        · exact ⟨rfl, fun _ => List.mem_append_left _, fun _ => rfl⟩
      | replaceVideo | getActiveTask | countActiveTasksByUser | insertTask | lockLesson
      | updateLessonVideo | commit | rollback | saveChunks =>
        unfold Query.exec at hQuery
        dsimp only at hQuery
        repeat' split at hQuery
        all_goals cases hQuery
        all_goals exact ⟨rfl, fun _ => id, fun _ => rfl⟩
      | _ =>
        cases hQuery
        exact ⟨rfl, fun _ => id, fun _ => rfl⟩
  | tryAcquire =>
    unfold exec at h
    dsimp only at h
    split at h <;> cases h <;> exact ⟨rfl, fun _ => id, fun _ => rfl⟩
  | _ =>
    cases h
    exact ⟨rfl, fun _ => id, fun _ => rfl⟩

theorem cancelled_touch {j : Nat} (h : st.cancelled j = true) :
    (st.touch i env).cancelled j = true := by
  unfold Store.touch
  by_cases hj : j = i
  · subst hj
    simp [h]
  · simp [Function.update_of_ne hj, h]

/-- A statement of the queue leaves the content and the outputs of the tasks as they are. -/
theorem exec_schedules {o : Op} {r : o.Resp} (ho : o.schedules = true)
    (h : exec i env o st = some (r, st')) :
    st'.content = st.content ∧ ∀ id t, st.tasks.find id = some t →
      ∃ t', st'.tasks.find id = some t' ∧ t.Kept t' := by
  constructor
  · cases o with
    | pg q =>
      obtain ⟨e, rfl, rfl⟩ | ⟨_, hQuery⟩ := exec_pg h
      · rfl
      · cases q with
        | insertTask | claimNextInqueuedTask =>
          unfold Query.exec at hQuery
          dsimp only at hQuery
          repeat' split at hQuery
          all_goals cases hQuery
          all_goals rfl
        | heartbeatTask | reapStaleProcessingBatch | requeueOrphanedInqueuedBatch | cancelTask =>
          cases hQuery
          rfl
        | _ => cases ho
    | _ => cases ho
  · intro id t ht
    obtain hSame | ⟨q, stmt, rfl, hStmt, hTasks⟩ | ⟨lessonId, hWipes, _⟩ | ⟨lessonId, _, rfl, _⟩ :=
      exec_tasks h
    · exact ⟨t, hSame ▸ ht, .refl t⟩
    · rw [hTasks]
      refine TaskQueue.exec_kept ?_ ht
      cases q with
      | insertTask | claimNextInqueuedTask | heartbeatTask | reapStaleProcessingBatch
      | requeueOrphanedInqueuedBatch | cancelTask =>
        cases hStmt
        rfl
      | _ => cases ho
    · have hNone : o.wipes = none := by
        cases o with
        | pg q => cases q <;> first | rfl | cases ho
        | _ => rfl
      rw [hNone] at hWipes
      cases hWipes
    · cases ho

/-- A claim finds no row, or returns the one that it has changed. -/
theorem exec_claim {workerId : UUID} {taskTypes : List String} {r : Except DbError Task}
    (h : exec i env (.pg (.claimNextInqueuedTask workerId taskTypes)) st = some (r, st')) :
    st'.claimant = st.claimant ∨ ∃ t t₀, r = .ok t ∧
      st'.claimant = Function.update st.claimant t.id (some i) ∧ st'.tasks.find t.id = some t ∧
      st.tasks.find t.id = some t₀ ∧ t₀.Kept t ∧ t.status = .processing := by
  obtain ⟨e, rfl, rfl⟩ | ⟨_, hQuery⟩ := exec_pg h
  · exact .inl rfl
  · unfold Query.exec at hQuery
    dsimp only at hQuery
    split at hQuery
    · cases hQuery
      exact .inl rfl
    · next tasks t hClaim =>
      cases hQuery
      obtain ⟨hFind, c, hOld, _, rfl⟩ := TaskQueue.find_claimNextInqueuedTask hClaim
      exact .inr ⟨_, c, rfl, rfl, hFind, hOld, ⟨rfl, rfl, rfl, fun h => by cases h⟩, rfl⟩

theorem claims_of_not_schedules {o : Op} (h : o.schedules ≠ true) : o.claims = false := by
  rw [← Bool.not_eq_true]
  intro hClaims
  refine h ?_
  unfold Op.claims at hClaims
  split at hClaims
  · rfl
  · cases hClaims

end Store

section Tracks

variable {s : AiSvc} {taskId lessonId : UUID} {low : Nat} {st st' : Store} {a a' : PipelineAttempt}

theorem PipelineOf.kept {t t' : Task} (h : PipelineOf s lessonId t) (hKept : t.Kept t') :
    PipelineOf s lessonId t' :=
  ⟨hKept.taskType.trans h.taskType, by rw [hKept.taskType, hKept.inputPayload, h.lesson]⟩

theorem PipelineAttempt.Row.kept {t t' : Task} (h : a.Row s lessonId low t) (hKept : t.Kept t') :
    a.Row s lessonId low t' where
  pipeline := h.pipeline.kept hKept
  low := by rw [hKept.outputPayload]; exact h.low
  stage := by rw [hKept.outputPayload]; exact h.stage
  chunked := by rw [hKept.outputPayload]; exact h.chunked
  succeeded hStatus := h.succeeded (hKept.succeeded hStatus)

/-- While the attempt runs, the task has not succeeded. -/
theorem PipelineAttempt.Row.not_succeeded {t : Task} (h : a.Row s lessonId low t)
    (hRunning : a.ended = false) : t.status ≠ .succeeded := by
  intro hStatus
  rw [(h.succeeded hStatus).1] at hRunning
  cases hRunning

/-- What `Tracks` looks at does not change, except that the row may be one that was kept. -/
theorem Tracks.frame (h : Tracks s taskId lessonId low st a)
    (hRow : ∀ t, st.tasks.find taskId = some t → ∃ t', st'.tasks.find taskId = some t' ∧ t.Kept t')
    (hChunks : chunksOf lessonId st'.content = chunksOf lessonId st.content)
    (hRows : rowsOf lessonId st'.content = rowsOf lessonId st.content)
    (hBatches : ∀ b ∈ st.batches, b ∈ st'.batches)
    (hClaimant : st'.claimant taskId = st.claimant taskId)
    (hCancelled : ∀ i, st.cancelled i = true → st'.cancelled i = true) :
    Tracks s taskId lessonId low st' a where
  row := by
    obtain ⟨t, ht, hOld⟩ := h.row
    obtain ⟨t', ht', hKept⟩ := hRow t ht
    exact ⟨t', ht', hOld.kept hKept⟩
  read := h.read
  aborted hAborted := by
    obtain ⟨i, hi, hCancel⟩ := h.aborted hAborted
    exact ⟨i, hClaimant.trans hi, hCancelled i hCancel⟩
  intact hChunked := by
    obtain ⟨hLesson, hBatch⟩ := h.intact hChunked
    rw [hChunks, hRows]
    refine ⟨hLesson, fun c hc => ?_⟩
    rcases hBatch c hc with hNone | ⟨b, hb, hRest⟩
    · exact .inl hNone
    · exact .inr ⟨b, hBatches b hb, hRest⟩
  knows hChunked := by
    rw [hChunks, hRows]
    exact h.knows hChunked

/-- The attempt passes over a chunk, or finds its context done. -/
theorem Tracks.pass (h : Tracks s taskId lessonId low st a) (chunkId : UUID) :
    Tracks s taskId lessonId low st (a.pass chunkId) := by
  obtain ⟨⟨t, ht, hPipeline, hLow, hStage, hChunked, hSucceeded⟩, hRead, hAborted, hIntact,
    hKnows⟩ := h
  refine ⟨⟨t, ht, hPipeline, hLow, hStage, hChunked, fun hStatus => ?_⟩, hRead, hAborted, hIntact,
    fun hDone => ?_⟩
  · obtain ⟨hEnded, hSaved, hCovers⟩ := hSucceeded hStatus
    exact ⟨hEnded, hSaved, (PipelineAttempt.Grows.pass chunkId a).covers hCovers⟩
  · obtain ⟨hListed, hEmpty, hFilled⟩ := hKnows hDone
    exact ⟨hListed, hEmpty, hFilled⟩

/-- The row is written; the stage may be set, and the attempt may end. -/
theorem Tracks.setRow {tasks : TaskQueue.TaskTable} {stage : Nat} {ended : Bool} {t : Task}
    (h : Tracks s taskId lessonId low st a) (ht : tasks.find taskId = some t)
    (hRow : PipelineAttempt.Row s lessonId low { a with stage := stage, ended := ended } t) :
    Tracks s taskId lessonId low { st with tasks := tasks }
      { a with stage := stage, ended := ended } :=
  ⟨⟨t, ht, hRow⟩, h.read, h.aborted, h.intact,
    fun hDone => ⟨(h.knows hDone).listed, (h.knows hDone).empty, (h.knows hDone).filled⟩⟩

/-- The stage is set, and perhaps the attempt ends; the row may take the new output over. -/
theorem PipelineAttempt.Row.setStage {t t' : Task} {output : Option Bytes} {ended : Bool}
    (h : a.Row s lessonId low t) (hStage : a.stage ≤ outputStage s output)
    (hChunked : 2 ≤ outputStage s output → a.chunked = true)
    (hType : t'.taskType = t.taskType) (hInput : t'.inputPayload = t.inputPayload)
    (hOutput : t'.outputPayload = t.outputPayload ∨ t'.outputPayload = output)
    (hSucceeded : t'.status = .succeeded → ended = true ∧ a.chunked = true ∧ a.Covers) :
    PipelineAttempt.Row s lessonId low { a with stage := outputStage s output, ended := ended }
      t' where
  pipeline := ⟨hType.trans h.pipeline.taskType, by rw [hType, hInput, h.pipeline.lesson]⟩
  low := by
    rcases hOutput with hOld | hNew
    · rw [hOld]
      exact h.low
    · rw [hNew]
      exact (h.low.trans h.stage).trans hStage
  stage := by
    rcases hOutput with hOld | hNew
    · rw [hOld]
      exact h.stage.trans hStage
    · rw [hNew]
  chunked := by
    rcases hOutput with hOld | hNew
    · rw [hOld]
      exact h.chunked
    · rw [hNew]
      exact hChunked
  succeeded := hSucceeded

/-- The rows of a chunk after a batch was saved for `chunkId`. -/
theorem filter_saved {rs rows : List LessonInteraction} {chunkId id : UUID} {force : Bool}
    (hRows : ∀ r ∈ rows, r.chunkId = some chunkId)
    (hEmpty : force = false → (rs.filter fun r => r.chunkId = some chunkId) = []) :
    (((if force then rs.filter fun r => r.chunkId ≠ some chunkId else rs) ++ rows).filter
      fun r => r.chunkId = some id) =
      if id = chunkId then rows else rs.filter fun r => r.chunkId = some id := by
  rw [List.filter_append]
  by_cases hId : id = chunkId
  · subst hId
    have hNew : (rows.filter fun r => r.chunkId = some id) = rows :=
      List.filter_eq_self.mpr fun r hr => decide_eq_true (hRows r hr)
    have hOld : ((if force then rs.filter fun r => r.chunkId ≠ some id else rs).filter
        fun r => r.chunkId = some id) = [] := by
      cases force with
      | false => exact hEmpty rfl
      | true => simp [List.filter_filter]
    rw [if_pos rfl, hNew, hOld, List.nil_append]
  · have hNew : (rows.filter fun r => r.chunkId = some id) = [] := by
      refine List.filter_eq_nil_iff.mpr fun r hr => ?_
      simp [hRows r hr, Ne.symm hId]
    have hOld : ((if force then rs.filter fun r => r.chunkId ≠ some chunkId else rs).filter
        fun r => r.chunkId = some id) = rs.filter fun r => r.chunkId = some id := by
      cases force with
      | false => rfl
      | true =>
        rw [if_pos rfl, List.filter_filter]
        refine List.filter_congr fun r _ => ?_
        by_cases hChunk : r.chunkId = some id <;> simp [hChunk, hId]
    rw [if_neg hId, hNew, hOld, List.append_nil]

theorem rowsOf_saveInteractionsForChunk {chunkId : UUID} {items : List GeneratedItem}
    {force : Bool} {newId : Nat → UUID} {c c' : Content} {rows : List LessonInteraction}
    (hChunk : chunkId ∈ (chunksOf lessonId c).map LessonTranscriptChunk.id)
    (h : saveInteractionsForChunk lessonId chunkId items force newId c = .ok (rows, c')) :
    chunksOf lessonId c' = chunksOf lessonId c ∧
      rowsOf lessonId c' = (if force then
        (rowsOf lessonId c).filter fun r => r.chunkId ≠ some chunkId else rowsOf lessonId c) ++
          rows := by
  obtain ⟨hParents, hChildren, _, hRows⟩ := saveInteractionsForChunk_spec h
  have hRefers : ∀ r, c'.refersTo (fun q => q.lessonId = lessonId) r =
      c.refersTo (fun q => q.lessonId = lessonId) r := by
    intro r
    unfold ForeignKey.refersTo
    rw [hParents]
  refine ⟨by rw [chunksOf, hParents, chunksOf], ?_⟩
  unfold rowsOf
  rw [hChildren, List.filter_append, funext hRefers]
  have hNew : rows.filter (c.refersTo fun q => q.lessonId = lessonId) = rows := by
    refine List.filter_eq_self.mpr fun r hr => ForeignKey.refersTo_iff.mpr ?_
    obtain ⟨q, hq, hId⟩ := List.mem_map.mp hChunk
    obtain ⟨hMem, hLesson⟩ := List.mem_filter.mp hq
    exact ⟨q, hMem, hLesson, by rw [hId, (hRows r hr).1]⟩
  rw [hNew]
  cases force with
  | false => rfl
  | true =>
    rw [if_pos rfl, if_pos rfl, List.filter_filter, List.filter_filter]
    congr 1
    exact List.filter_congr fun r _ => Bool.and_comm _ _

variable {i : Nat} {env : Env}

theorem Tracks.failedQuery {q : Query} (h : Tracks s taskId lessonId low st a)
    (hRunning : a.ended = false) (hq : a.Queries s taskId lessonId q) (e : DbError)
    (hReads : ∀ limit, q = .listLessonInteractions lessonId limit → limit ≠ s.interactionsLimit) :
    Tracks s taskId lessonId low st (a.afterQuery s q (.error e)) := by
  obtain ⟨t, ht, hRow⟩ := h.row
  have hNotSucceeded : t.status ≠ .succeeded := hRow.not_succeeded hRunning
  cases q with
  | setTaskCheckpoint id output workerId =>
    obtain ⟨_, hStage, hChunked⟩ := hq
    exact h.setRow ht (hRow.setStage hStage hChunked rfl rfl (.inl rfl)
      fun hStatus => absurd hStatus hNotSucceeded)
  | markSucceeded id output workerId =>
    obtain ⟨_, hStage, hChunked, _⟩ := hq
    exact h.setRow ht (hRow.setStage hStage (fun _ => hChunked) rfl rfl (.inl rfl)
      fun hStatus => absurd hStatus hNotSucceeded)
  | markFailed =>
    exact h.setRow ht ⟨hRow.pipeline, hRow.low, hRow.stage, hRow.chunked,
      fun hStatus => absurd hStatus hNotSucceeded⟩
  | listLessonInteractions id limit =>
    obtain ⟨rfl, _⟩ := hq
    refine ⟨⟨t, ht, hRow.pipeline, hRow.low, hRow.stage, hRow.chunked, hRow.succeeded⟩, ?_,
      h.aborted, h.intact,
      fun hDone => ⟨(h.knows hDone).listed, (h.knows hDone).empty, (h.knows hDone).filled⟩⟩
    simp [PipelineAttempt.afterQuery, h.read, hReads limit rfl]
  | saveInteractionsForChunk id chunkId => exact h.pass chunkId
  | claimNextInqueuedTask => exact hq.elim
  | _ => exact h

/-- The chunks that an attempt has listed are chunks of the lesson. -/
theorem PipelineAttempt.Knows.mem_chunks {cs : List LessonTranscriptChunk}
    {rs : List LessonInteraction} (h : a.Knows s cs rs) {l : List LessonTranscriptChunk}
    (hListed : a.listed = some l) {c : LessonTranscriptChunk} (hc : c ∈ l) : c ∈ cs := by
  rw [h.listed l hListed] at hc
  exact (List.mem_insertionSort _).mp (List.mem_of_mem_take hc)

/-- A batch takes the place of its chunk's interactions. -/
theorem Intact.saveBatch {batches : List Batch} {cs : List LessonTranscriptChunk}
    {rs rs' rows : List LessonInteraction} {chunkId : UUID} (h : Intact lessonId batches cs rs)
    (hNew : rows ≠ []) (hLesson : ∀ r ∈ rs', r ∈ rs ∨ r.lessonId = lessonId)
    (hFilter : ∀ id, (rs'.filter fun r => r.chunkId = some id) =
      if id = chunkId then rows else rs.filter fun r => r.chunkId = some id) :
    Intact lessonId (batches ++ [⟨chunkId, rows⟩]) cs rs' := by
  refine ⟨fun r hr => (hLesson r hr).elim (h.lesson r) id, fun c hc => ?_⟩
  rw [hFilter]
  split
  · next hId =>
    exact .inr ⟨⟨chunkId, rows⟩, List.mem_append_right _ (List.mem_singleton_self _), hId.symm,
      hNew, rfl⟩
  · rcases h.batch c hc with hNone | ⟨b, hb, hRest⟩
    · exact .inl hNone
    · exact .inr ⟨b, List.mem_append_left _ hb, hRest⟩

theorem Tracks.saveInteractions {chunkId : UUID} {items : List GeneratedItem} {force : Bool}
    {newId : Nat → UUID} {content : Content} {rows : List LessonInteraction}
    (h : Tracks s taskId lessonId low st a)
    (hq : a.Queries s taskId lessonId (.saveInteractionsForChunk lessonId chunkId items force))
    (hSave : saveInteractionsForChunk lessonId chunkId items force newId st.content =
      .ok (rows, content)) :
    Tracks s taskId lessonId low
      { st with content := content, batches := st.batches ++ [⟨chunkId, rows⟩] }
      (a.afterQuery s (.saveInteractionsForChunk lessonId chunkId items force) (.ok rows)) := by
  obtain ⟨_, hDone, hItems, ⟨l, hListed, hMem⟩, hForce⟩ := hq
  obtain ⟨t, ht, hRow⟩ := h.row
  have hIntact := h.intact hDone
  have hKnows := h.knows hDone
  obtain ⟨c₀, hc₀, rfl⟩ := List.mem_map.mp hMem
  have hChunk : c₀ ∈ chunksOf lessonId st.content := hKnows.mem_chunks hListed hc₀
  obtain ⟨hChunks, hRows⟩ := rowsOf_saveInteractionsForChunk (List.mem_map_of_mem hChunk) hSave
  obtain ⟨_, _, hLength, hSaved⟩ := saveInteractionsForChunk_spec hSave
  have hNew : rows ≠ [] := by
    intro hNil
    rw [hNil, List.length_nil] at hLength
    exact hItems (List.length_eq_zero_iff.mp hLength.symm)
  have hEmpty : force = false →
      ((rowsOf lessonId st.content).filter fun r => r.chunkId = some c₀.id) = [] := by
    intro hNot
    rcases hForce hNot with hEmpty | hUnread
    · exact hKnows.empty c₀ hChunk hEmpty
    · rw [h.read] at hUnread
      cases hUnread
  have hFilter : ∀ id, ((rowsOf lessonId content).filter fun r => r.chunkId = some id) =
      if id = c₀.id then rows
      else (rowsOf lessonId st.content).filter fun r => r.chunkId = some id := by
    intro id
    rw [hRows]
    exact filter_saved (fun r hr => (hSaved r hr).1) hEmpty
  refine ⟨⟨t, ht, hRow.pipeline, hRow.low, hRow.stage, hRow.chunked, fun hStatus => ?_⟩, h.read,
    h.aborted, fun _ => ?_, fun _ => ?_⟩
  · obtain ⟨hEnded, _, chunks, hl, hCovered⟩ := hRow.succeeded hStatus
    refine ⟨hEnded, hDone, chunks, hl, fun c hc => (hCovered c hc).imp_left fun hFilled => ?_⟩
    simp [PipelineAttempt.afterQuery, hFilled]
  · show Intact lessonId _ (chunksOf lessonId content) (rowsOf lessonId content)
    rw [hChunks]
    refine hIntact.saveBatch hNew (fun r hr => ?_) hFilter
    rw [hRows] at hr
    rcases List.mem_append.mp hr with hOld | hNewRow
    · left
      cases force with
      | false => exact hOld
      | true => exact (List.mem_filter.mp hOld).1
    · exact .inr (hSaved r hNewRow).2
  · show PipelineAttempt.Knows s (chunksOf lessonId content) (rowsOf lessonId content) _
    rw [hChunks]
    refine ⟨hKnows.listed, fun c hc hKnown => ?_, fun c hc hKnown => ?_⟩
    · simp only [PipelineAttempt.afterQuery, Bool.and_eq_true, decide_eq_true_eq] at hKnown
      rw [hFilter, if_neg hKnown.2]
      exact hKnows.empty c hc hKnown.1
    · rw [hFilter]
      split
      · exact hNew
      · next hOther =>
        simp only [PipelineAttempt.afterQuery, hOther, decide_false, Bool.or_false] at hKnown
        exact hKnows.filled c hc hKnown

theorem mem_listLessonInteractions {limit : Nat} {c : Content} {r : LessonInteraction}
    (h : r ∈ listLessonInteractions lessonId limit c) :
    r ∈ c.children.rows ∧ r.lessonId = lessonId := by
  have hMem := (List.mem_insertionSort _).mp (List.mem_of_mem_take h)
  simpa using hMem

/-- The list is whole when its limit suffices. -/
theorem mem_listLessonInteractions_of_le {limit : Nat} {c : Content} {r : LessonInteraction}
    (hLimit : (c.children.rows.filter fun r => r.lessonId = lessonId).length ≤ limit)
    (hMem : r ∈ c.children.rows) (hLesson : r.lessonId = lessonId) :
    r ∈ listLessonInteractions lessonId limit c := by
  unfold listLessonInteractions
  rw [List.take_of_length_le (by rwa [List.length_insertionSort]), List.mem_insertionSort,
    List.mem_filter]
  exact ⟨hMem, decide_eq_true hLesson⟩

theorem Tracks.listInteractions {limit : Nat} (h : Tracks s taskId lessonId low st a)
    (hDone : a.chunked = true)
    (hLimit : limit = s.interactionsLimit →
      (st.content.children.rows.filter fun r => r.lessonId = lessonId).length ≤ limit) :
    Tracks s taskId lessonId low st (a.afterQuery s (.listLessonInteractions lessonId limit)
      (.ok (listLessonInteractions lessonId limit st.content))) := by
  obtain ⟨t, ht, hRow⟩ := h.row
  have hIntact := h.intact hDone
  have hKnows := h.knows hDone
  refine ⟨⟨t, ht, hRow.pipeline, hRow.low, hRow.stage, hRow.chunked, fun hStatus => ?_⟩, h.read,
    h.aborted, h.intact, fun _ => ⟨hKnows.listed, fun c hc hKnown => ?_, fun c hc hKnown => ?_⟩⟩
  · obtain ⟨hEnded, _, chunks, hl, hCovered⟩ := hRow.succeeded hStatus
    refine ⟨hEnded, hDone, chunks, hl, fun c hc => (hCovered c hc).imp_left fun hFilled => ?_⟩
    simp [PipelineAttempt.afterQuery, hFilled]
  · simp only [PipelineAttempt.afterQuery, Bool.or_eq_true, Bool.and_eq_true, decide_eq_true_eq,
      List.all_eq_true] at hKnown
    rcases hKnown with hOld | ⟨hWhole, hNone⟩
    · exact hKnows.empty c hc hOld
    · refine List.filter_eq_nil_iff.mpr fun r hr hChunk => ?_
      obtain ⟨hMem, _⟩ := mem_rowsOf.mp hr
      exact hNone r (mem_listLessonInteractions_of_le (hLimit hWhole) hMem (hIntact.lesson r hr))
        (of_decide_eq_true hChunk)
  · simp only [PipelineAttempt.afterQuery, Bool.or_eq_true, List.any_eq_true,
      decide_eq_true_eq] at hKnown
    rcases hKnown with hOld | ⟨r, hr, hChunk⟩
    · exact hKnows.filled c hc hOld
    · have hMem : r ∈ (rowsOf lessonId st.content).filter fun r => r.chunkId = some c.id :=
        List.mem_filter.mpr ⟨mem_rowsOf.mpr ⟨(mem_listLessonInteractions hr).1, c, hc, hChunk⟩,
          decide_eq_true hChunk⟩
      exact List.ne_nil_of_mem hMem

/-- New chunks come without interactions. -/
theorem Tracks.saveChunks {limit : Nat} {chunks : List ChunkProposal} {lesson : Bool}
    {newId : Nat → UUID} {saved : SavedChunks} {content : Content}
    (h : Tracks s taskId lessonId low st a) (hRunning : a.ended = false)
    (hSave : saveChunks lesson lessonId limit chunks newId st.content = .ok (saved, content)) :
    Tracks s taskId lessonId low { st with content := content }
      (a.afterQuery s (.saveChunks lessonId limit chunks) (.ok saved)) := by
  obtain ⟨t, ht, hRow⟩ := h.row
  have hNone := rowsOf_saveChunks hSave
  refine ⟨⟨t, ht, hRow.pipeline, hRow.low, hRow.stage, fun _ => rfl,
    fun hStatus => absurd hStatus (hRow.not_succeeded hRunning)⟩, h.read, h.aborted, fun _ => ?_,
    fun _ => ?_⟩
  · show Intact lessonId st.batches (chunksOf lessonId content) (rowsOf lessonId content)
    rw [hNone]
    exact ⟨by simp, fun _ _ => .inl rfl⟩
  · exact ⟨fun _ hl => (by cases hl), fun _ _ hEmpty => (by cases hEmpty),
      fun _ _ hFilled => (by cases hFilled)⟩

/-- While its claimant lives, the attempt ends only when every chunk is covered. -/
theorem Tracks.covers (h : Tracks s taskId lessonId low st a)
    (hClaimant : st.claimant taskId = some i) (hLive : st.cancelled i = false)
    (hEnd : a.aborted = true ∨ a.unread = true ∨ a.Covers) : a.Covers := by
  rcases hEnd with hAborted | hUnread | hCovers
  · obtain ⟨j, hj, hCancel⟩ := h.aborted hAborted
    rw [hClaimant] at hj
    cases hj
    rw [hLive] at hCancel
    cases hCancel
  · rw [h.read] at hUnread
    cases hUnread
  · exact hCovers

/-- A query of the attempt that does not fail. -/
theorem Tracks.query {q : Query} {r : Except DbError q.Result}
    (h : Tracks s taskId lessonId low st a) (hClaimant : st.claimant taskId = some i)
    (hLive : st.cancelled i = false) (hRunning : a.ended = false)
    (hq : a.Queries s taskId lessonId q)
    (hReads : ∀ limit, q = .listLessonInteractions lessonId limit → limit = s.interactionsLimit →
      (st.content.children.rows.filter fun r => r.lessonId = lessonId).length ≤ limit)
    (hExec : q.exec i env st = some (r, st')) :
    Tracks s taskId lessonId low st' (a.afterQuery s q r) := by
  obtain ⟨t, ht, hRow⟩ := h.row
  have hNotSucceeded : t.status ≠ .succeeded := hRow.not_succeeded hRunning
  cases q with
  | getLessonByID | getLessonTranscriptChunk =>
    cases hExec
    exact h
  | updateTaskProgress =>
    cases hExec
    exact h.frame (fun t ht => TaskQueue.exec_kept (s := .updateTaskProgress ..) rfl ht) rfl rfl
      (fun _ hb => hb) rfl fun _ hi => hi
  | deleteTasksForLessonExcept lid id =>
    cases hExec
    refine h.frame (fun t ht => ⟨t, ?_, .refl t⟩) rfl rfl (fun _ hb => hb) rfl fun _ hi => hi
    have hKeep : t.id = id := (Table.find_key ht).trans hq.symm
    show (TaskQueue.deleteTasksForLessonExcept lid id st.tasks).find taskId = some t
    rw [TaskQueue.deleteTasksForLessonExcept, Table.find_delete, ht]
    simp [hKeep]
  | deleteLessonInteractionsByLesson | deleteLessonTranscriptChunks =>
    cases hExec
    have hNot : a.chunked ≠ true := by
      rw [show a.chunked = false from hq]
      exact Bool.false_ne_true
    exact ⟨⟨t, ht, hRow⟩, h.read, h.aborted, fun hDone => absurd hDone hNot,
      fun hDone => absurd hDone hNot⟩
  | listLessonTranscriptChunks id limit =>
    cases hExec
    refine ⟨⟨t, ht, hRow.pipeline, hRow.low, hRow.stage, hRow.chunked,
      fun hStatus => absurd hStatus hNotSucceeded⟩, h.read, h.aborted, h.intact, fun hDone => ?_⟩
    obtain ⟨rfl, rfl⟩ := hq hDone
    refine ⟨fun l hl => ?_, (h.knows hDone).empty, (h.knows hDone).filled⟩
    cases hl
    rfl
  | listLessonInteractions id limit =>
    cases hExec
    obtain ⟨rfl, hDone⟩ := hq
    exact h.listInteractions hDone (hReads limit rfl)
  | saveChunks id limit chunks =>
    obtain rfl := hq.1
    unfold Query.exec at hExec
    dsimp only at hExec
    split at hExec
    · cases hExec
      exact h.failedQuery hRunning hq _ (by simp)
    · next saved content hSave =>
      cases hExec
      exact h.saveChunks hRunning hSave
  | saveInteractionsForChunk id chunkId items force =>
    obtain rfl := hq.1
    unfold Query.exec at hExec
    dsimp only at hExec
    split at hExec
    · cases hExec
      exact h.failedQuery hRunning hq _ (by simp)
    · next saved content hSave =>
      cases hExec
      exact h.saveInteractions hq hSave
  | setTaskCheckpoint id output workerId =>
    cases hExec
    obtain ⟨rfl, hStage, hChunked⟩ := hq
    refine h.setRow (by rw [TaskQueue.setTaskCheckpoint, Table.find_update, ht]; rfl) ?_
    dsimp only
    split
    · exact hRow.setStage hStage hChunked rfl rfl (.inr rfl)
        fun hStatus => absurd hStatus hNotSucceeded
    · exact hRow.setStage hStage hChunked rfl rfl (.inl rfl)
        fun hStatus => absurd hStatus hNotSucceeded
  | markSucceeded id output workerId =>
    cases hExec
    obtain ⟨rfl, hStage, hDone, hEnd⟩ := hq
    have hCovers := h.covers hClaimant hLive hEnd
    refine h.setRow (by rw [TaskQueue.markSucceeded, Table.find_update, ht]; rfl) ?_
    dsimp only
    split
    · exact hRow.setStage hStage (fun _ => hDone) rfl rfl (.inr rfl)
        fun _ => ⟨rfl, hDone, hCovers⟩
    · exact hRow.setStage hStage (fun _ => hDone) rfl rfl (.inl rfl)
        fun hStatus => absurd hStatus hNotSucceeded
  | markFailed id errorMsg workerId =>
    cases hExec
    obtain rfl := hq
    obtain ⟨t', ht', hKept⟩ := TaskQueue.exec_kept
      (s := .markFailed id errorMsg workerId env.now) rfl ht
    obtain ⟨hPipeline, hLow, hStage, hChunked, hSucceeded⟩ := hRow.kept hKept
    exact h.setRow ht' ⟨hPipeline, hLow, hStage, hChunked,
      fun hStatus => absurd (hKept.succeeded hStatus) hNotSucceeded⟩
  | _ => exact hq.elim

theorem tracks_touch (h : Tracks s taskId lessonId low st a) (i : Nat) (env : Env) :
    Tracks s taskId lessonId low (st.touch i env) a :=
  h.frame (fun t ht => ⟨t, ht, .refl t⟩) rfl rfl (fun _ hb => hb) rfl
    fun _ hi => cancelled_touch hi

/-- A step of the executor that has claimed the task last. -/
theorem Tracks.step {o : Op} {r : o.Resp} (h : Tracks s taskId lessonId low st a)
    (hClaimant : st.claimant taskId = some i) (hResumes : a.Resumes s taskId lessonId o)
    (hReads : readsInteractions s i env st o = true) (hExec : exec i env o st = some (r, st')) :
    Tracks s taskId lessonId low st' (a.after s ⟨o, r⟩) := by
  have hTouch := tracks_touch h i env
  cases o with
  | pg q =>
    have hq := hResumes.queries q rfl
    have hAfter : a.after s ⟨.pg q, r⟩ = a.afterQuery s q r := rfl
    rw [hAfter]
    obtain ⟨e, rfl, rfl⟩ | ⟨hLive, hQuery⟩ := exec_pg hExec
    · have hFailed : Tracks s taskId lessonId low ((st.touch i env).failed i q.inTransaction) a :=
        hTouch.frame (fun t ht => ⟨t, ht, .refl t⟩) rfl rfl (fun _ hb => hb) rfl fun _ hi => hi
      refine hFailed.failedQuery hResumes.running hq e ?_
      rintro limit rfl hWhole
      simp only [readsInteractions, hWhole, ne_eq, not_true, decide_false, Bool.false_or,
        Bool.and_eq_true, decide_eq_true_eq, Bool.not_eq_true'] at hReads
      simp [exec, hReads.1.1, hReads.1.2, Query.exec] at hExec
    · refine hTouch.query hClaimant hLive hResumes.running hq ?_ hQuery
      rintro limit rfl hWhole
      simp only [readsInteractions, hWhole, ne_eq, not_true, decide_false, Bool.false_or,
        Bool.and_eq_true, decide_eq_true_eq] at hReads
      rw [hWhole]
      exact hReads.2
  | fetchChunkTranscript chunkId =>
    cases hExec
    rw [after_fetchChunkTranscript]
    split
    · exact hTouch.pass chunkId
    · exact hTouch
  | generateForChunk chunk =>
    cases hExec
    rcases env.items with e | _ | ⟨item, items⟩
    · exact hTouch.pass chunk.id
    · exact hTouch.pass chunk.id
    · exact hTouch
  | ctxErr =>
    cases hExec
    cases hCancel : (st.touch i env).cancelled i with
    | false => exact hTouch
    | true =>
      obtain ⟨⟨t, ht, hPipeline, hLow, hStage, hChunked, hSucceeded⟩, hRead, _, hIntact, hKnows⟩ :=
        hTouch
      exact ⟨⟨t, ht, hPipeline, hLow, hStage, hChunked, hSucceeded⟩, hRead,
        fun _ => ⟨i, hClaimant, hCancel⟩, hIntact,
        fun hDone => ⟨(hKnows hDone).listed, (hKnows hDone).empty, (hKnows hDone).filled⟩⟩
  | tryAcquire =>
    unfold exec at hExec
    dsimp only at hExec
    split at hExec <;> cases hExec <;>
      exact hTouch.frame (fun t ht => ⟨t, ht, .refl t⟩) rfl rfl (fun _ hb => hb) rfl fun _ hi => hi
  | _ =>
    cases hExec
    exact hTouch.frame (fun t ht => ⟨t, ht, .refl t⟩) rfl rfl (fun _ hb => hb) rfl fun _ hi => hi

end Tracks

/-- What the executor that has claimed the task last has learnt. -/
def lastAttempt {n : Nat} (s : AiSvc) (taskId : UUID) (p : System n) : PipelineAttempt :=
  match p.store.claimant taskId with
  | none => {}
  | some k => if h : k < n then attempt s (p.hist ⟨k, h⟩) else {}

/-- The store agrees with the last attempt, which is one at the task. -/
structure Follows {n : Nat} (s : AiSvc) (taskId lessonId : UUID) (low : Nat) (p : System n) :
    Prop where
  tracks : Tracks s taskId lessonId low p.store (lastAttempt s taskId p)
  claimed : ∀ k, p.store.claimant taskId = some k → ∃ t, (lastAttempt s taskId p).task = some t ∧
    t.id = taskId ∧ PipelineOf s lessonId t

section Runs

variable {n : Nat} {s : AiSvc} {taskId lessonId : UUID} {low : Nat} {p q : System n} {i : Fin n}
  {env : Env} {o : Op} {r : o.Resp}

theorem lastAttempt_eq (h : p.store.claimant taskId = some i.val) :
    lastAttempt s taskId p = attempt s (p.hist i) := by
  unfold lastAttempt
  rw [h]
  exact dif_pos i.isLt

/-- A step of another executor than the last one. -/
theorem lastAttempt_other (hNot : p.store.claimant taskId ≠ some i.val)
    (hClaimant : q.store.claimant taskId = p.store.claimant taskId)
    (hHist : q.hist = Function.update p.hist i (p.hist i ++ [⟨o, r⟩])) :
    lastAttempt s taskId q = lastAttempt s taskId p := by
  unfold lastAttempt
  rw [hClaimant]
  split
  · rfl
  · next k hk =>
    split
    · next hLt =>
      have hOther : (⟨k, hLt⟩ : Fin n) ≠ i := by
        rintro rfl
        exact hNot hk
      rw [hHist, Function.update_of_ne hOther]
    · rfl

/-- A claim begins an attempt with what the row says. -/
theorem Tracks.claim {st st' : Store} {a : PipelineAttempt} {t t₀ : Task}
    (h : Tracks s taskId lessonId low st a) (hOld : st.tasks.find taskId = some t₀)
    (hNew : st'.tasks.find taskId = some t) (hKept : t₀.Kept t) (hStatus : t.status = .processing)
    (hContent : st'.content = st.content) (hBatches : ∀ b ∈ st.batches, b ∈ st'.batches) :
    Tracks s taskId lessonId low st' (PipelineAttempt.claim s t) := by
  obtain ⟨t₁, ht₁, hRow⟩ := h.row
  rw [hOld] at ht₁
  cases ht₁
  have hRow' := hRow.kept hKept
  have hDone : (PipelineAttempt.claim s t).chunked = true → a.chunked = true := fun hClaim =>
    hRow'.chunked (of_decide_eq_true hClaim)
  refine ⟨⟨t, hNew, hRow'.pipeline, hRow'.low, le_rfl, fun hTwo => decide_eq_true hTwo,
    fun hSucceeded => ?_⟩, rfl, nofun, fun hClaim => ?_, fun _ => ⟨nofun, nofun, nofun⟩⟩
  · rw [hStatus] at hSucceeded
    cases hSucceeded
  · obtain ⟨hLesson, hBatch⟩ := h.intact (hDone hClaim)
    rw [hContent]
    refine ⟨hLesson, fun c hc => ?_⟩
    rcases hBatch c hc with hNone | ⟨b, hb, hRest⟩
    · exact .inl hNone
    · exact .inr ⟨b, hBatches b hb, hRest⟩

/-- A step of the executor that has claimed the task last. -/
theorem Follows.ownStep (h : Follows s taskId lessonId low p)
    (hLast : p.store.claimant taskId = some i.val) (hActs : Acts s (attempt s (p.hist i)) o)
    (hReads : readsInteractions s i.val env p.store o = true)
    (hExec : exec i env o p.store = some (r, q.store))
    (hHist : q.hist = Function.update p.hist i (p.hist i ++ [⟨o, r⟩])) :
    Follows s taskId lessonId low q := by
  obtain ⟨_, _, hClaimant⟩ := exec_record hExec
  obtain ⟨t, ht, rfl, hPipeline⟩ := h.claimed _ hLast
  have hTracks := h.tracks
  rw [lastAttempt_eq hLast] at ht hTracks
  have hResumes := hActs.resumes t ht hPipeline.taskType lessonId hPipeline.lesson
  have hNoClaim : o.claims = false := by
    rw [← Bool.not_eq_true]
    intro hClaims
    rw [hActs.claims hClaims] at ht
    cases ht
  have hLast' : q.store.claimant t.id = some i.val := by rw [hClaimant hNoClaim, hLast]
  have hAttempt : lastAttempt s t.id q = (attempt s (p.hist i)).after s ⟨o, r⟩ := by
    rw [lastAttempt_eq hLast', hHist, Function.update_self, attempt_concat]
  refine ⟨?_, fun _ _ => ⟨t, ?_, rfl, hPipeline⟩⟩
  · rw [hAttempt]
    exact hTracks.step hLast hResumes hReads hExec
  · rw [hAttempt, after_task hNoClaim, ht]

/-- A step of another executor that leaves the claim, the lesson and what matters of the row. -/
theorem Follows.otherStep (h : Follows s taskId lessonId low p)
    (hLast : p.store.claimant taskId ≠ some i.val)
    (hExec : exec i env o p.store = some (r, q.store))
    (hHist : q.hist = Function.update p.hist i (p.hist i ++ [⟨o, r⟩]))
    (hSame : q.store.claimant taskId = p.store.claimant taskId)
    (hRow : ∀ t, p.store.tasks.find taskId = some t →
      ∃ t', q.store.tasks.find taskId = some t' ∧ t.Kept t')
    (hChunks : chunksOf lessonId q.store.content = chunksOf lessonId p.store.content)
    (hRows : rowsOf lessonId q.store.content = rowsOf lessonId p.store.content) :
    Follows s taskId lessonId low q := by
  obtain ⟨hCancelled, hBatches, _⟩ := exec_record hExec
  have hCancel : ∀ j, p.store.cancelled j = true → q.store.cancelled j = true := fun j hj =>
    hCancelled ▸ cancelled_touch hj
  have hAttempt := lastAttempt_other (s := s) hLast hSame hHist
  refine ⟨?_, fun k hk => ?_⟩
  · rw [hAttempt]
    exact h.tracks.frame hRow hChunks hRows hBatches hSame hCancel
  · rw [hAttempt]
    exact h.claimed k (hSame ▸ hk)

theorem step_follows (hG : undisturbed s taskId lessonId p (i, env) = true)
    (hNext : p.next i = some o) (hActs : Acts s (attempt s (p.hist i)) o)
    (hStep : (system n).step p (i, env) = some q)
    (hExec : exec i env o p.store = some (r, q.store))
    (hHist : q.hist = Function.update p.hist i (p.hist i ++ [⟨o, r⟩]))
    (h : Follows s taskId lessonId low p) : Follows s taskId lessonId low q := by
  obtain ⟨_, hBatches, hClaimant⟩ := exec_record hExec
  simp only [undisturbed, hNext, Option.all_some] at hG
  by_cases hLast : p.store.claimant taskId = some i.val
  · rw [if_pos hLast] at hG
    exact h.ownStep hLast hActs hG hExec hHist
  · rw [if_neg hLast, Bool.or_eq_true] at hG
    by_cases hSchedules : o.schedules = true
    · obtain ⟨hContent, hKept⟩ := exec_schedules hSchedules hExec
      have hFrame : q.store.claimant taskId = p.store.claimant taskId →
          Follows s taskId lessonId low q := fun hSame =>
        h.otherStep hLast hExec hHist hSame (hKept taskId) (by rw [hContent]) (by rw [hContent])
      cases hClaims : o.claims with
      | false => exact hFrame (by rw [hClaimant hClaims])
      | true =>
        unfold Op.claims at hClaims
        split at hClaims
        · obtain hSame | ⟨t, t₀, rfl, hUpdate, hNew, hOld, hKeptRow, hStatus⟩ := exec_claim hExec
          · exact hFrame (by rw [hSame])
          · by_cases hId : t.id = taskId
            · -- the task is claimed: an attempt begins
              subst hId
              have hLast' : q.store.claimant t.id = some i.val := by
                rw [hUpdate, Function.update_self]
              have hAttempt : lastAttempt s t.id q = PipelineAttempt.claim s t := by
                rw [lastAttempt_eq hLast', hHist, Function.update_self, attempt_concat]
                rfl
              obtain ⟨t₁, ht₁, hRow⟩ := h.tracks.row
              rw [hOld] at ht₁
              cases ht₁
              refine ⟨?_, fun _ _ => ⟨t, ?_, rfl, hRow.pipeline.kept hKeptRow⟩⟩
              · rw [hAttempt]
                exact h.tracks.claim hOld hNew hKeptRow hStatus hContent hBatches
              · rw [hAttempt]
                rfl
            · exact hFrame (by rw [hUpdate, Function.update_of_ne (Ne.symm hId)])
        · cases hClaims
    · have hView := hG.resolve_left hSchedules
      rw [hStep, Option.all_some, decide_eq_true_eq] at hView
      simp only [lessonView, Prod.mk.injEq] at hView
      exact h.otherStep hLast hExec hHist (by rw [hClaimant (claims_of_not_schedules hSchedules)])
        (fun t ht => ⟨t, hView.1.trans ht, .refl t⟩) hView.2.1 hView.2.2

/-- The task is queued for the first time. -/
structure Queued (s : AiSvc) (taskId lessonId : UUID) (st : Store) : Prop where
  row : ∃ t, st.tasks.find taskId = some t ∧ PipelineOf s lessonId t ∧ t.status = .inqueued ∧
    t.outputPayload = none
  claimant : st.claimant taskId = none
  batches : st.batches = []

theorem Queued.follows {party : Fin n → Party} {st : Store} (h : Queued s taskId lessonId st) :
    Follows s taskId lessonId 0 (.start s party st : System n) := by
  obtain ⟨t, ht, hPipeline, hStatus, hOutput⟩ := h.row
  have hAttempt : lastAttempt s taskId (.start s party st : System n) = {} := by
    unfold lastAttempt
    rw [show (System.start s party st).store.claimant taskId = none from h.claimant]
  refine ⟨?_, fun k hk => ?_⟩
  · rw [hAttempt]
    refine ⟨⟨t, ht, hPipeline, Nat.zero_le _, ?_, fun hTwo => ?_, fun hSucceeded => ?_⟩, rfl, nofun,
      nofun, nofun⟩
    · rw [hOutput, outputStage_none]
    · rw [hOutput, outputStage_none] at hTwo
      cases hTwo
    · rw [hStatus] at hSucceeded
      cases hSucceeded
  · have hNone : (System.start s party st).store.claimant taskId = none := h.claimant
    rw [hNone] at hk
    cases hk

/-- The stage of the output that is stored for the task. -/
def persistedStage (s : AiSvc) (taskId : UUID) (st : Store) : Nat :=
  ((st.tasks.find taskId).map fun t => outputStage s t.outputPayload).getD 0

theorem run_follows {steps : List (Fin n × Env)}
    (hRun : (system n).Runs (fun p a => undisturbed s taskId lessonId p a = true) p steps q)
    (hAlong : ∀ i, (p.thread i).prog.Along (fun h o => Acts s (attempt s h) o) (fun _ _ => True)
      (p.hist i))
    (h : Follows s taskId lessonId low p) : Follows s taskId lessonId low q ∧
      ∀ i, (q.thread i).prog.Along (fun h o => Acts s (attempt s h) o) (fun _ _ => True)
        (q.hist i) := by
  refine hRun.invariant (I := fun p => Follows s taskId lessonId low p ∧
    ∀ i, (p.thread i).prog.Along (fun h o => Acts s (attempt s h) o) (fun _ _ => True)
      (p.hist i)) ?_ ⟨h, hAlong⟩
  rintro p ⟨i, env⟩ q hG hStep ⟨h, hAlong⟩
  obtain ⟨o, r, hNext, hActs, hExec, hHist, hAlong'⟩ :=
    Pool.step_along (P := fun _ h o => Acts s (attempt s h) o) (Q := fun _ _ _ => True) hStep hAlong
  exact ⟨step_follows hG hNext hActs hStep hExec hHist h, hAlong'⟩

/-- In every run in which only the executor of the last claim works on the lesson and reads all of
its interactions: once the output of a task says that the chunks are there, no later step belongs to
the transcribe or the chunk stage; and when the task has succeeded, each chunk has the interactions
of one batch or none, and none only if it was passed over or is not among those that are listed. -/
theorem pipeline_resumes {party : Fin n → Party} {store : Store} {before after : List (Fin n × Env)}
    (hQueued : Queued s taskId lessonId store)
    (hBefore : (system n).Runs (fun p a => undisturbed s taskId lessonId p a = true)
      (.start s party store) before p)
    (hAfter : (system n).Runs (fun p a => undisturbed s taskId lessonId p a = true) p after q) :
    (2 ≤ persistedStage s taskId p.store → ∀ i o, q.store.claimant taskId = some i.val →
      q.next i = some o → o.early = false) ∧
    ((q.store.tasks.find taskId).map Task.status = some .succeeded →
      (∀ c ∈ chunksOf lessonId q.store.content, interactionsOf c.id q.store.content = [] ∨
        ∃ b ∈ q.store.batches, b.chunkId = c.id ∧ b.rows ≠ [] ∧
          interactionsOf c.id q.store.content = b.rows) ∧
      ∀ c ∈ (listLessonTranscriptChunks lessonId s.chunksLimit q.store.content).val,
        interactionsOf c.id q.store.content ≠ [] ∨
          (lastAttempt s taskId q).passedOver c.id = true) := by
  obtain ⟨hMiddle, hAlong⟩ := run_follows hBefore (fun i => (party i).acts s) hQueued.follows
  obtain ⟨hEnd, hAlongEnd⟩ := run_follows hAfter hAlong hMiddle
  constructor
  · intro hPersisted i o hLast hNext
    obtain ⟨t, ht, hRow⟩ := hMiddle.tracks.row
    have hLow : 2 ≤ outputStage s t.outputPayload := by
      simpa [persistedStage, ht] using hPersisted
    have hRaised : Follows s taskId lessonId 2 p :=
      ⟨⟨⟨t, ht, hRow.pipeline, hLow, hRow.stage, hRow.chunked, hRow.succeeded⟩,
        hMiddle.tracks.read, hMiddle.tracks.aborted, hMiddle.tracks.intact, hMiddle.tracks.knows⟩,
        hMiddle.claimed⟩
    obtain ⟨hEnd, _⟩ := run_follows hAfter hAlong hRaised
    obtain ⟨t', ht', hRow'⟩ := hEnd.tracks.row
    obtain ⟨t₀, ht₀, rfl, hPipeline⟩ := hEnd.claimed _ hLast
    rw [lastAttempt_eq hLast] at ht₀ hRow'
    have hActs : Acts s (attempt s (q.hist i)) o := by
      have hProg := hAlongEnd i
      unfold Pool.next at hNext
      split at hNext
      · cases hNext
      · next o' k hOp =>
        cases hNext
        rw [hOp] at hProg
        exact hProg.1
    have hResumes := hActs.resumes t₀ ht₀ hPipeline.taskType lessonId hPipeline.lesson
    rw [← Bool.not_eq_true]
    intro hEarly
    have hStage := hResumes.early hEarly
    have hReached := hRow'.low.trans hRow'.stage
    omega
  · intro hStatus
    obtain ⟨t, ht, hRow⟩ := hEnd.tracks.row
    rw [ht, Option.map_some, Option.some.injEq] at hStatus
    obtain ⟨_, hDone, chunks, hListed, hCovered⟩ := hRow.succeeded hStatus
    have hIntact := hEnd.tracks.intact hDone
    have hKnows := hEnd.tracks.knows hDone
    refine ⟨fun c hc => ?_, fun c hc => ?_⟩
    · rw [interactionsOf_eq hc]
      exact hIntact.batch c hc
    · have hList : chunks = (listLessonTranscriptChunks lessonId s.chunksLimit
          q.store.content).val := hKnows.listed chunks hListed
      rw [← hList] at hc
      have hChunk := hKnows.mem_chunks hListed hc
      rw [interactionsOf_eq hChunk]
      exact (hCovered c hc).imp_left (hKnows.filled c hChunk)

end Runs

/-- A `pipeline_run` of the lecture is queued, perhaps one that generates everything anew. -/
def pipelineQueued (force : Bool) : Store :=
  { lecture with
    tasks := .ofList [TaskQueue.InsertTaskParams.row ⟨100, 10, none, "pipeline_run",
      some (unaryProto.marshalInput "pipeline_run" { lessonId := some 10, forceRegenerate := force }),
      20⟩ 1 0] }

/-- Two goroutines that look for tasks, and the scanner. -/
def crashAndReclaim : Fin 3 → Party
  | 0 => .worker 7 allKinds
  | 1 => .reapStaleProcessingBatch 5 100
  | 2 => .worker 8 allKinds

/-- The services answer; the chunks and the interactions of step `j` get new ids. -/
def answering (j : Nat) : Env where
  newId k := 400 + 10 * j + k
  transcribed := .ok ("xin chao", [])
  proposals := .ok [⟨0, 60, "a"⟩, ⟨60, 120, "b"⟩]
  items := .ok [⟨"quiz", 5, "?", "", "{}"⟩]

/-- The first executor stops after it has saved the chunks, and before it has set the checkpoint. -/
def crashedRun : List (Fin 3 × Env) :=
  schedule 2 ((List.range 25).map (fun j => (0, answering j)) ++ [(1, calm)] ++
    (List.range 31).map (fun j => (2, answering (100 + j))))

theorem pipeline_resumes_crashedRun :
    ∃ q, (system 3).run (.start demoSvc crashAndReclaim (pipelineQueued true)) crashedRun = some q ∧
      (q.store.tasks.find 100).map Task.status = some .succeeded ∧
      (∀ c ∈ chunksOf 10 q.store.content, interactionsOf c.id q.store.content = [] ∨
        ∃ b ∈ q.store.batches, b.chunkId = c.id ∧ b.rows ≠ [] ∧
          interactionsOf c.id q.store.content = b.rows) ∧
      ∀ c ∈ (listLessonTranscriptChunks 10 demoSvc.chunksLimit q.store.content).val,
        interactionsOf c.id q.store.content ≠ [] ∨
          (lastAttempt demoSvc 100 q).passedOver c.id = true := by
  have hSome : (((system 3).restrict fun p a => undisturbed demoSvc 100 10 p a = true).run
      (.start demoSvc crashAndReclaim (pipelineQueued true)) crashedRun).any (fun q =>
        decide ((q.store.tasks.find 100).map Task.status = some .succeeded)) = true := by
    decide +kernel
  obtain ⟨q, hRun, hStatus⟩ := (Option.any_eq_true _ _).mp hSome
  have hSucceeded := of_decide_eq_true hStatus
  have hRuns := Machine.Runs.of_restrict hRun
  exact ⟨q, hRuns.run, hSucceeded, (pipeline_resumes
    ⟨⟨_, rfl, ⟨rfl, rfl⟩, rfl, rfl⟩, rfl, rfl⟩ hRuns (.nil q)).2 hSucceeded⟩

/-- One executor alone; the model refuses to generate anything for the first chunk. -/
def refusedRun : List (Fin 3 × Env) :=
  schedule 2 <| (List.range 45).map fun j =>
    (0, if j < 36 then { answering j with items := .error (errorf "quota") } else answering j)

/-- The task then succeeds, while the first chunk has no interactions. -/
theorem pipeline_leaves_chunk_empty :
    ¬ ∀ (n : Nat) (s : AiSvc) (party : Fin n → Party) (taskId lessonId : UUID) (store : Store)
      (steps : List (Fin n × Env)) (q : System n), Queued s taskId lessonId store →
      ((system n).restrict fun p a => undisturbed s taskId lessonId p a = true).run
        (.start s party store) steps = some q →
      (q.store.tasks.find taskId).map Task.status = some .succeeded →
      ∀ c ∈ chunksOf lessonId q.store.content, ∃ b ∈ q.store.batches, b.chunkId = c.id ∧
        b.rows ≠ [] ∧ interactionsOf c.id q.store.content = b.rows := by
  intro h
  have hSome : (((system 3).restrict fun p a => undisturbed demoSvc 100 10 p a = true).run
      (.start demoSvc crashAndReclaim (pipelineQueued false)) refusedRun).any (fun q =>
        decide ((q.store.tasks.find 100).map Task.status = some .succeeded) &&
          (chunksOf 10 q.store.content).any fun c =>
            q.store.batches.all fun b => decide (b.chunkId ≠ c.id)) = true := by
    decide +kernel
  obtain ⟨q, hRun, hEnd⟩ := (Option.any_eq_true _ _).mp hSome
  obtain ⟨hStatus, hChunks⟩ := Bool.and_eq_true_iff.mp hEnd
  obtain ⟨c, hc, hAll⟩ := List.any_eq_true.mp hChunks
  obtain ⟨b, hb, hId, -⟩ := h 3 demoSvc crashAndReclaim 100 10 (pipelineQueued false) refusedRun q
    ⟨⟨_, rfl, ⟨rfl, rfl⟩, rfl, rfl⟩, rfl, rfl⟩ hRun (of_decide_eq_true hStatus) c hc
  exact of_decide_eq_true (List.all_eq_true.mp hAll b hb) hId

end Richter.Lessons
