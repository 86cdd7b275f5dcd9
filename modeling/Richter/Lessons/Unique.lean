import Richter.Lessons.Accept

/-! At most one active task for each lesson, task type and chunk: `StartLessonTask` looks for an
active task and inserts a new one under the lock of the lesson's row, and no other statement makes
a row active. -/

namespace Richter.Lessons

open Lib
open TaskQueue (RowStep Task TaskTable)
open Handler (orConnectDBError)

/-- The lesson, the type and the chunk of a task; no chunk counts as a value. -/
abbrev Slot := UUID × String × Option UUID

def slotOf (r : Task) : Slot := (r.lessonId, r.taskType, r.chunkId)

/-- No two active tasks have the same lesson, type and chunk. -/
def UniqueActive (t : TaskTable) : Prop :=
  ∀ r ∈ t.rows, ∀ r' ∈ t.rows, r.status.active = true → r'.status.active = true →
    slotOf r = slotOf r' → r = r'

def NoActive (slot : Slot) (t : TaskTable) : Prop :=
  ∀ r ∈ t.rows, r.status.active = true → slotOf r ≠ slot

/-- Every active task of `t'` was active in `t`, for the same lesson, type and chunk. -/
def ActiveFrom (t t' : TaskTable) : Prop :=
  ∀ r' ∈ t'.rows, r'.status.active = true →
    ∃ r ∈ t.rows, r.status.active = true ∧ r.id = r'.id ∧ slotOf r = slotOf r'

section Tables

variable {t t' : TaskTable} {slot : Slot}

theorem UniqueActive.activeFrom (h : UniqueActive t) (hFrom : ActiveFrom t t') :
    UniqueActive t' := by
  intro r₁' hr₁' r₂' hr₂' hActive₁ hActive₂ hSlot
  obtain ⟨r₁, hr₁, hWas₁, hId₁, hSlot₁⟩ := hFrom r₁' hr₁' hActive₁
  obtain ⟨r₂, hr₂, hWas₂, hId₂, hSlot₂⟩ := hFrom r₂' hr₂' hActive₂
  have hEq : r₁ = r₂ := h r₁ hr₁ r₂ hr₂ hWas₁ hWas₂ (hSlot₁.trans (hSlot.trans hSlot₂.symm))
  exact t'.eq_of_key hr₁' hr₂' (by rw [← hId₁, ← hId₂, hEq])

theorem NoActive.activeFrom (h : NoActive slot t) (hFrom : ActiveFrom t t') :
    NoActive slot t' := by
  intro r' hr' hActive
  obtain ⟨r, hr, hWas, _, hSlot⟩ := hFrom r' hr' hActive
  exact hSlot ▸ h r hr hWas

theorem rowStep_createdBy {claimer : Option UUID} {r r' : Task} (hStep : RowStep claimer r r') :
    r'.createdBy = r.createdBy := by
  cases hStep <;> rfl

/-- The statements of the queue change neither the lesson, the type nor the chunk of a row, and make
no row active that was not. -/
theorem rowStep_active {claimer : Option UUID} {r r' : Task} (hStep : RowStep claimer r r')
    (h : r'.status.active = true) :
    r.status.active = true ∧ r.id = r'.id ∧ slotOf r = slotOf r' := by
  cases hStep with
  | same | progress => exact ⟨h, rfl, rfl⟩
  | claimed _ _ _ hs | heartbeat _ hs | reaped _ _ hs | requeued _ _ hs | checkpoint _ _ hs =>
    exact ⟨by rw [hs]; rfl, rfl, rfl⟩
  | succeeded | failed | cancelled => cases h

/-- Every row of `t'` was in `t`, up to a statement of the queue. -/
def RowsFrom (t t' : TaskTable) : Prop :=
  ∀ r' ∈ t'.rows, ∃ r ∈ t.rows, ∃ claimer, RowStep claimer r r'

theorem RowsFrom.refl (t : TaskTable) : RowsFrom t t := fun r hr => ⟨r, hr, none, .same⟩

theorem RowsFrom.delete (t : TaskTable) (p : Task → Bool) : RowsFrom t (t.delete p) :=
  fun r hr => ⟨r, (List.mem_filter.mp hr).1, none, .same⟩

/-- The table after a statement of the queue that inserts no row. -/
theorem rowsFrom_exec {stmt : TaskQueue.Stmt} (h : ∀ p now, stmt ≠ .insertTask p now) :
    RowsFrom t (TaskQueue.exec t stmt) := by
  intro r' hr'
  obtain ⟨r, hr, hStep⟩ | ⟨_, p, queueSeq, now, hStmt, rfl⟩ :=
    TaskQueue.exec_find_inv (Table.mem_rows_iff.mp hr')
  · exact ⟨r, (Table.find_eq_some_iff.mp hr).1, _, hStep⟩
  · exact absurd hStmt (h p now)

theorem RowsFrom.activeFrom (h : RowsFrom t t') : ActiveFrom t t' := by
  intro r' hr' hActive
  obtain ⟨r, hr, _, hStep⟩ := h r' hr'
  exact ⟨r, hr, rowStep_active hStep hActive⟩

/-- No user has more active tasks than before. -/
theorem RowsFrom.countActiveTasksByUser_le (h : RowsFrom t t') (userId : UUID) :
    TaskQueue.countActiveTasksByUser userId t' ≤ TaskQueue.countActiveTasksByUser userId t := by
  refine Table.countP_le_of_keys fun r' hr' hCounted => ?_
  simp only [Bool.and_eq_true, decide_eq_true_eq] at hCounted ⊢
  obtain ⟨r, hr, _, hStep⟩ := h r' hr'
  obtain ⟨hActive, hId, _⟩ := rowStep_active hStep hCounted.2
  exact ⟨r, hr, ⟨(rowStep_createdBy hStep).symm.trans hCounted.1, hActive⟩, hId⟩

theorem mem_insertTask {p : TaskQueue.InsertTaskParams} {now : TaskQueue.Timestamptz}
    (h : TaskQueue.insertTask p now t = some t') {r : Task} (hr : r ∈ t'.rows) :
    r ∈ t.rows ∨ r = p.row (TaskQueue.maxQueueSeq t + 1) now := by
  have hFind := Table.mem_rows_iff.mp hr
  rw [Table.find_insert h] at hFind
  split at hFind
  · cases hFind
    exact .inr rfl
  · exact .inl (Table.mem_rows_iff.mpr hFind)

theorem NoActive.insertTask {p : TaskQueue.InsertTaskParams} {now : TaskQueue.Timestamptz}
    (h : NoActive slot t) (hSlot : (p.lessonId, p.taskType, p.chunkId) ≠ slot)
    (hInsert : TaskQueue.insertTask p now t = some t') : NoActive slot t' := by
  intro r hr hActive
  obtain hr | rfl := mem_insertTask hInsert hr
  · exact h r hr hActive
  · exact hSlot

theorem UniqueActive.insertTask {p : TaskQueue.InsertTaskParams} {now : TaskQueue.Timestamptz}
    (h : UniqueActive t) (hFree : NoActive (p.lessonId, p.taskType, p.chunkId) t)
    (hInsert : TaskQueue.insertTask p now t = some t') : UniqueActive t' := by
  intro r₁ hr₁ r₂ hr₂ hActive₁ hActive₂ hSlot
  rcases mem_insertTask hInsert hr₁ with hr₁ | rfl <;>
    rcases mem_insertTask hInsert hr₂ with hr₂ | rfl
  · exact h r₁ hr₁ r₂ hr₂ hActive₁ hActive₂ hSlot
  · exact absurd hSlot (hFree r₁ hr₁ hActive₁)
  · exact absurd hSlot.symm (hFree r₂ hr₂ hActive₂)
  · rfl

/-- `GetActiveTask` finds the active tasks of its slot. -/
theorem noActive_of_getActiveTask {lessonId : UUID} {taskType : String} {chunkId : Option UUID}
    (h : TaskQueue.getActiveTask lessonId taskType chunkId t = none) :
    NoActive (lessonId, taskType, chunkId) t := by
  intro r hr hActive hSlot
  have hNot := List.find?_eq_none.mp h r hr
  have hChunk : r.chunkId = chunkId := congrArg (·.2.2) hSlot
  have hType : r.taskType = taskType := congrArg (·.2.1) hSlot
  have hLesson : r.lessonId = lessonId := congrArg (·.1) hSlot
  subst hChunk hType hLesson
  rw [hActive] at hNot
  cases hc : r.chunkId <;> simp [hc, sqlEq] at hNot

end Tables

section Steps

variable {i : Nat} {env : Env} {o : Op} {s s' : Store} {r : o.Resp}

/-- An operation makes no task active, or it inserts one in the transaction that holds the lesson's
row and in which no statement has failed. -/
theorem exec_rowsFrom (h : exec i env o s = some (r, s')) :
    RowsFrom s.tasks s'.tasks ∨
      ∃ lessonId chunkId taskType inputPayload createdBy p now,
        o = .pg (.insertTask lessonId chunkId taskType inputPayload createdBy) ∧
        (p.lessonId, p.taskType, p.chunkId) = (lessonId, taskType, chunkId) ∧
        p.createdBy = createdBy ∧
        TaskQueue.insertTask p now s.tasks = some s'.tasks ∧
        s.lessonLock lessonId = some i ∧ s.txAborted i = false ∧ s'.lessonLock lessonId = none := by
  obtain hSame | ⟨q, stmt, rfl, hStmt, hTasks⟩ | ⟨lessonId, _, hTasks⟩ |
    ⟨lessonId, id, _, hTasks⟩ := exec_tasks h
  · exact .inl (hSame ▸ .refl _)
  · by_cases hInsert : ∃ p now, stmt = .insertTask p now
    · obtain ⟨p, now, rfl⟩ := hInsert
      obtain ⟨_, _, rfl⟩ | ⟨_, hExec⟩ := exec_pg h
      · exact .inl (.refl _)
      · cases q <;> cases hStmt
        rename_i lessonId chunkId taskType inputPayload createdBy
        unfold Query.exec at hExec
        dsimp only at hExec
        split at hExec
        · next hLock =>
          split at hExec
          · cases hExec
            exact .inl (.refl _)
          · next hAborted =>
            split at hExec
            · cases hExec
              exact .inl (.refl _)
            · next tasks hSome =>
              cases hExec
              refine .inr ⟨lessonId, chunkId, taskType, inputPayload, createdBy, _, _, rfl, rfl,
                rfl, hSome, hLock, by simpa [Store.touch] using hAborted, ?_⟩
              simp [Store.unlock]
        · cases hExec
          exact .inl (.refl _)
    · rw [hTasks]
      exact .inl (rowsFrom_exec fun p now hEq => hInsert ⟨p, now, hEq⟩)
  · exact .inl (hTasks ▸ .delete _ _)
  · exact .inl (hTasks ▸ .delete _ _)

/-- The operation begins a transaction on a lesson's row. -/
def Op.locks : Op → Bool
  | .pg (.lockLesson _) => true
  | _ => false

theorem lessonLock_unlock {lessonId k : UUID} {j : Nat}
    (h : (s.unlock lessonId).lessonLock k = some j) : s.lessonLock k = some j := by
  by_cases hk : k = lessonId
  · subst hk
    simp [Store.unlock] at h
  · simpa [Store.unlock, hk] using h

/-- Only the query that begins a transaction takes a lock or takes back a failure, and it does so
for its own thread. -/
theorem Query.exec_transaction {q : Query} {r : Except DbError q.Result}
    (h : q.exec i env s = some (r, s')) {j : Nat} (hj : j = i → (Op.pg q).locks = false)
    {lessonId : UUID} (hLock : s'.lessonLock lessonId = some j) (hLive : s'.txAborted j = false) :
    s.lessonLock lessonId = some j ∧ s.txAborted j = false := by
  cases q with
  | lockLesson id =>
    have hOther : j ≠ i := fun hji => by cases hj hji
    unfold Query.exec at h
    dsimp only at h
    split at h
    · split at h
      · cases h
        refine ⟨?_, by simpa [hOther] using hLive⟩
        by_cases hk : lessonId = id
        · subst hk
          simp [Ne.symm hOther] at hLock
        · simpa [hk] using hLock
      · cases h
        exact ⟨hLock, hLive⟩
    · cases h
  | commit | rollback | insertTask =>
    unfold Query.exec at h
    dsimp only at h
    repeat' split at h
    all_goals cases h
    all_goals first | exact ⟨hLock, hLive⟩ | exact ⟨lessonLock_unlock hLock, hLive⟩
  | replaceVideo | updateLessonVideo | saveChunks | saveInteractionsForChunk | claimNextInqueuedTask
  | getActiveTask | countActiveTasksByUser =>
    unfold Query.exec at h
    dsimp only at h
    repeat' split at h
    all_goals cases h
    all_goals exact ⟨hLock, hLive⟩
  | _ =>
    cases h
    exact ⟨hLock, hLive⟩

theorem exec_transaction (h : exec i env o s = some (r, s')) {j : Nat}
    (hj : j = i → o.locks = false) {lessonId : UUID}
    (hLock : s'.lessonLock lessonId = some j) (hLive : s'.txAborted j = false) :
    s.lessonLock lessonId = some j ∧ s.txAborted j = false := by
  cases o with
  | pg q =>
    obtain ⟨e, _, rfl⟩ | ⟨_, hExec⟩ := exec_pg h
    · refine ⟨hLock, ?_⟩
      by_cases hji : j = i
      · subst hji
        simp only [Store.failed, Function.update_self, Bool.or_eq_false_iff] at hLive
        exact hLive.1
      · simpa [Store.failed, hji, Store.touch] using hLive
    · exact Query.exec_transaction hExec hj hLock hLive
  | tryAcquire workerId lessonId' =>
    unfold exec at h
    dsimp only at h
    split at h <;> cases h <;> exact ⟨hLock, hLive⟩
  | _ =>
    cases h
    exact ⟨hLock, hLive⟩

/-- A transaction in which `GetActiveTask` has failed for another reason than that there is no
active task has failed. -/
theorem noActive_of_exec {lessonId : UUID} {taskType : String} {chunkId : Option UUID} {e : DbError}
    (h : exec i env (.pg (.getActiveTask lessonId taskType chunkId)) s = some (.error e, s'))
    (hLive : s'.txAborted i = false) : NoActive (lessonId, taskType, chunkId) s.tasks := by
  obtain ⟨_, _, rfl⟩ | ⟨_, hExec⟩ := exec_pg h
  · simp [Store.failed, Query.inTransaction] at hLive
  · unfold Query.exec at hExec
    dsimp only at hExec
    split at hExec
    · next hAborted =>
      cases hExec
      rw [hAborted] at hLive
      cases hLive
    · cases hFind : TaskQueue.getActiveTask lessonId taskType chunkId s.tasks with
      | none => exact noActive_of_getActiveTask hFind
      | some t =>
        have hOne : one (some t) = (.error e : Except DbError Task) :=
          congrArg Prod.fst (Option.some.inj (hFind ▸ hExec))
        cases hOne

end Steps

/-! What `StartLessonTask` has found in its transaction. -/

/-- The slot in which the transaction has looked for an active task and found none. -/
def checkedAfter : Option Slot → Prog.Event Op Op.Resp → Option Slot
  | _, ⟨.pg (.lockLesson _), _⟩ => none
  | _, ⟨.pg (.getActiveTask lessonId taskType chunkId), .error _⟩ =>
    some (lessonId, taskType, chunkId)
  | _, ⟨.pg (.getActiveTask ..), .ok _⟩ => none
  | slot, _ => slot

def checked (h : History) : Option Slot := h.foldl checkedAfter none

def Op.insertsTask : Op → Bool
  | .pg (.insertTask ..) => true
  | _ => false

/-- Of all operations of the parties only those of requests insert tasks. -/
theorem insertsTask_eq_false {o : Op} (h : (∃ id, o.forTask id) ∨ o.byEditor ∨ o.reads) :
    o.insertsTask = false := by
  cases o with
  | pg q => cases q <;> first | rfl | simp [Op.forTask, Op.windsUp, Op.working, Op.transcribing,
      Op.chunking, Op.generating, Query.transcribing, Query.chunking, Query.generating,
      Op.byEditor, Query.byEditor, Op.reads, Query.reads] at h
  | _ => rfl

/-- A task is inserted in the slot that was looked at. -/
def InsertsChecked (slot : Option Slot) (o : Op) : Prop :=
  ∀ lessonId chunkId taskType inputPayload createdBy,
    o = .pg (.insertTask lessonId chunkId taskType inputPayload createdBy) →
      slot = some (lessonId, taskType, chunkId)

/-- What an event changes of the slot. -/
abbrev Checks (o : Op) (slot : Option Slot) (r : o.Resp) (slot' : Option Slot) : Prop :=
  slot' = checkedAfter slot ⟨o, r⟩

theorem checked_append (h : History) (e : Prog.Event Op Op.Resp) :
    checked (h ++ [e]) = checkedAfter (checked h) e := List.foldl_append

section Handlers

variable {α : Type}

/-- Reads leave the slot as it was. -/
theorem reads_keep_checked {x : Handler α} (hx : x.Reads) (slot : Option Slot) :
    Prog.Meets Checks InsertsChecked x (fun _ k => k = slot) (fun _ => True) slot := by
  refine (Prog.Performs.meets hx (I := fun k => k = slot) ?_ ?_ rfl).mono (fun _ _ => id)
    fun _ _ => trivial
  · rintro k o ho _ lessonId chunkId taskType inputPayload createdBy rfl
    cases ho
  · rintro o k r k' ho rfl rfl
    cases o with
    | pg q => cases q <;> first | rfl | cases ho
    | statObject => rfl
    | _ => cases ho

/-- A program that inserts no task. -/
theorem insertsChecked_of_performs {p : Prog Op Op.Resp α}
    (hp : p.Performs fun o => o.insertsTask = false) (slot : Option Slot) :
    p.Ensures Checks InsertsChecked (fun _ _ => True) slot := by
  refine (Prog.Performs.ensures hp (I := fun _ => True) ?_ (fun _ _ _ _ _ _ _ => trivial)
    trivial).mono (fun _ _ => id) fun _ _ _ => trivial
  rintro k o ho _ lessonId chunkId taskType inputPayload createdBy rfl
  cases ho

/-- A program goes on after a handler that only reads. -/
theorem meets_after_reads {β : Type} {x : Handler α} (hx : x.Reads) {f : α → Handler β}
    {slot : Option Slot}
    (hf : ∀ a, Prog.Meets Checks InsertsChecked (f a) (fun _ _ => True) (fun _ => True) slot) :
    Prog.Meets Checks InsertsChecked (x >>= f) (fun _ _ => True) (fun _ => True) slot := by
  refine (reads_keep_checked hx slot).bind ?_
  rintro a k rfl
  exact hf a

theorem startInTx_inserts_checked (s : AiSvc) (caller : Except Error UUID)
    (req : StartLessonTaskRequest) (taskType : String) (userID : UUID) (chunkID : Option UUID)
    (slot : Option Slot) :
    Prog.Meets Checks InsertsChecked (startInTx s caller req taskType userID chunkID)
      (fun _ _ => True) (fun _ => True) slot := by
  have hNotInsert : ∀ q k, (∀ lessonId chunkId taskType inputPayload createdBy,
      q ≠ .insertTask lessonId chunkId taskType inputPayload createdBy) →
      InsertsChecked k (.pg q) := by
    rintro q k hq lessonId chunkId taskType inputPayload createdBy ⟨⟩
    exact absurd rfl (hq _ _ _ _ _)
  unfold startInTx
  refine (Prog.meets_perform_bind _).mpr ⟨hNotInsert _ _ nofun, ?_⟩
  rintro (e | activeTask) k rfl
  · refine meets_after_reads (requireUnderCap_reads userID) fun _ =>
      meets_after_reads (preflightLessonTask_reads caller req.kind req.lessonId) fun _ =>
      meets_after_reads (performs_require _) fun inputPayload => ?_
    refine (Prog.meets_bind _).mpr ⟨?_, ?_⟩
    · rintro lessonId chunkId taskType' inputPayload' createdBy ⟨⟩
      rfl
    · rintro (e | task) k _ <;> trivial
  · refine (Prog.meets_perform_bind _).mpr ⟨hNotInsert _ _ nofun, ?_⟩
    rintro (e | _) k _ <;> trivial

theorem startLessonTask_inserts_checked (s : AiSvc) (caller : Except Error UUID)
    (req : StartLessonTaskRequest) (slot : Option Slot) :
    Prog.Meets Checks InsertsChecked (startLessonTask s caller req) (fun _ _ => True)
      (fun _ => True) slot := by
  unfold startLessonTask
  refine meets_after_reads (performs_require _) fun taskType =>
    meets_after_reads (performs_orConnectDBError rfl) fun _ =>
    meets_after_reads (performs_require caller) fun userID =>
    meets_after_reads (requestedChunk_reads req) fun chunkID => ?_
  refine (Prog.meets_bind _).mpr ((Prog.meets_bind _).mpr ⟨nofun, ?_⟩)
  rintro (e | _) k rfl
  · trivial
  · refine (Prog.meets_bind _).mpr (Prog.meets_lift.mpr ?_)
    refine Prog.Ensures.mono (startInTx_inserts_checked s caller req taskType userID chunkID none)
      (fun _ _ => id) ?_
    rintro (e | task) k _
    · refine (Prog.meets_perform_bind _).mpr ⟨nofun, ?_⟩
      rintro r k _
      trivial
    · trivial

end Handlers

/-- Only requests that start a task insert one. -/
theorem Party.performs_no_insert (s : AiSvc) {party : Party}
    (h : ∀ caller req, party ≠ .startLessonTask caller req) :
    (party.program s).Performs fun o => o.insertsTask = false := by
  cases party with
  | startLessonTask caller req => exact absurd rfl (h caller req)
  | worker workerId allowedTypes =>
    have hClaim : (claimAndRun s workerId allowedTypes).Performs
        fun o => o.insertsTask = false := by
      refine ⟨rfl, ?_⟩
      rintro (e | task)
      · trivial
      · exact (runTask_performs workerId task).mono fun o ho =>
          insertsTask_eq_false (.inl ⟨_, ho⟩)
    exact Prog.Performs.bind hClaim fun _ => trivial
  | heartbeat | reapStaleProcessingBatch | requeueOrphanedInqueuedBatch =>
    exact ⟨rfl, fun _ => trivial⟩
  | cancelLessonTask admin teacher taskId =>
    exact Prog.Performs.bind (cancelLessonTask_performs admin teacher
      (fun o ho => insertsTask_eq_false (.inr (.inr ho))) rfl) fun _ => trivial
  | updateLessonVideo caller req =>
    have hEdits := (updateLessonVideo_edits (s := s) caller req).mono fun o ho =>
      insertsTask_eq_false (.inr (.inl ho))
    exact Prog.Performs.bind hEdits fun _ => trivial
  | resetLessonContent caller lessonId =>
    have hEdits := (resetLessonContent_edits caller lessonId).mono fun o ho =>
      insertsTask_eq_false (.inr (.inl ho))
    exact Prog.Performs.bind hEdits fun _ => trivial

/-- Every party inserts tasks only in the slot that it has looked at in its transaction. -/
theorem Party.inserts_checked (s : AiSvc) (party : Party) :
    (party.program s).Along (fun h o => InsertsChecked (checked h) o) (fun _ _ => True) [] := by
  have hInserts : (party.program s).Ensures Checks InsertsChecked (fun _ _ => True) none := by
    by_cases hStarts : ∃ caller req, party = .startLessonTask caller req
    · obtain ⟨caller, req, rfl⟩ := hStarts
      have hStart := startLessonTask_inserts_checked s caller req none
      exact (Prog.ensures_bind _).mpr (Prog.Ensures.mono hStart (fun _ _ => id)
        fun _ _ _ => trivial)
    · refine insertsChecked_of_performs (party.performs_no_insert s fun caller req h => ?_) none
      exact hStarts ⟨caller, req, h⟩
  exact Prog.Ensures.along (h := []) hInserts

/-- The active tasks are unique, and while a thread holds a lesson's row, in a transaction in which
no statement has failed, the slot of the lesson that it has looked at stays free. -/
structure SlotsGuarded {n : Nat} (s : Store) (h : Fin n → History) : Prop where
  unique : UniqueActive s.tasks
  free : ∀ i slot, checked (h i) = some slot → s.lessonLock slot.1 = some i.val →
    s.txAborted i = false → NoActive slot s.tasks

section Runs

variable {n : Nat}

/-- A slot that has been looked at was looked at before the event, or the event is the look. -/
theorem checkedAfter_cases {k : Option Slot} {e : Prog.Event Op Op.Resp} {slot : Slot}
    (h : checkedAfter k e = some slot) :
    (k = some slot ∧ e.op.locks = false) ∨
      ∃ err, e = ⟨.pg (.getActiveTask slot.1 slot.2.1 slot.2.2), .error err⟩ := by
  unfold checkedAfter at h
  split at h
  · cases h
  · next err =>
    cases h
    exact .inr ⟨err, rfl⟩
  · cases h
  · next hNotLock _ _ =>
    refine .inl ⟨h, ?_⟩
    obtain ⟨o, r⟩ := e
    cases o with
    | pg q =>
      cases q with
      | lockLesson id => exact absurd rfl (hNotLock id r)
      | _ => rfl
    | _ => rfl

theorem step_slotsGuarded {s s' : Store} {h : Fin n → History} {i : Fin n} {env : Env} {o : Op}
    {r : o.Resp} (hExec : exec i.val env o s = some (r, s'))
    (hInserts : InsertsChecked (checked (h i)) o) (hGuarded : SlotsGuarded s h) :
    SlotsGuarded s' (Function.update h i (h i ++ [⟨o, r⟩])) := by
  obtain hRows | ⟨lessonId, chunkId, taskType, inputPayload, createdBy, p, now, rfl, hSlot, _,
    hInsert, hLock, hLive, hUnlock⟩ := exec_rowsFrom hExec
  · have hFrom := hRows.activeFrom
    refine ⟨hGuarded.unique.activeFrom hFrom, fun j slot hChecked hLock hLive => ?_⟩
    refine NoActive.activeFrom ?_ hFrom
    by_cases hji : j = i
    · subst hji
      rw [Function.update_self, checked_append] at hChecked
      obtain ⟨hBefore, hLocks⟩ | ⟨err, hEvent⟩ := checkedAfter_cases hChecked
      · obtain ⟨hLock', hLive'⟩ := exec_transaction hExec (fun _ => hLocks) hLock hLive
        exact hGuarded.free j slot hBefore hLock' hLive'
      · cases hEvent
        exact noActive_of_exec hExec hLive
    · rw [Function.update_of_ne hji] at hChecked
      have hOther : j.val ≠ i.val := fun hVal => hji (Fin.ext hVal)
      obtain ⟨hLock', hLive'⟩ := exec_transaction hExec (fun hVal => absurd hVal hOther) hLock hLive
      exact hGuarded.free j slot hChecked hLock' hLive'
  · have hFree : NoActive (p.lessonId, p.taskType, p.chunkId) s.tasks := by
      rw [hSlot]
      exact hGuarded.free i _ (hInserts _ _ _ _ _ rfl) hLock hLive
    refine ⟨hGuarded.unique.insertTask hFree hInsert, fun j slot hChecked hLock' hLive' => ?_⟩
    by_cases hji : j = i
    · subst hji
      rw [Function.update_self, checked_append] at hChecked
      have hSame : checked (h j) = some slot := hChecked
      rw [hInserts _ _ _ _ _ rfl, Option.some.injEq] at hSame
      subst hSame
      rw [hUnlock] at hLock'
      cases hLock'
    · rw [Function.update_of_ne hji] at hChecked
      have hOther : j.val ≠ i.val := fun hVal => hji (Fin.ext hVal)
      obtain ⟨hLockBefore, hLiveBefore⟩ :=
        exec_transaction hExec (fun hVal => absurd hVal hOther) hLock' hLive'
      refine (hGuarded.free j slot hChecked hLockBefore hLiveBefore).insertTask ?_ hInsert
      rintro rfl
      rw [hSlot, hLock, Option.some.injEq] at hLockBefore
      exact hOther hLockBefore.symm

variable {s : AiSvc} {party : Fin n → Party} {store : Store} {steps : List (Fin n × Env)}
  {p : System n}

/-- Whatever requests, workers and scanners do side by side, no two active tasks have the same
lesson, type and chunk. -/
theorem active_tasks_unique (hStart : UniqueActive store.tasks)
    (hRun : (system n).run (.start s party store) steps = some p) : UniqueActive p.store.tasks := by
  have hInv := Pool.runs_invariant (I := SlotsGuarded) ?_ (Machine.Runs.of_run hRun)
    (fun i => (party i).inserts_checked s) ⟨hStart, ?_⟩
  · exact hInv.1.unique
  · intro p i env o r s' _ _ hInserts hGuarded hExec
    exact step_slotsGuarded hExec hInserts hGuarded
  · intro i slot hChecked
    cases hChecked

end Runs

/-- The same task is asked for twice, beside a worker. -/
def askedTwice : Fin 3 → Party
  | 0 => .startLessonTask (.ok 20) ⟨10, .extractTranscript, none⟩
  | 1 => .startLessonTask (.ok 21) ⟨10, .extractTranscript, none⟩
  | 2 => .worker 7 allKinds

/-- The second request waits for the first and is answered with its task, which is claimed. -/
def secondWaits : List (Fin 3 × Env) :=
  let asked : Env := { newId := fun _ => 100, stat := true }
  schedule 2 (List.replicate 4 (0, asked) ++ [(1, calm)] ++ List.replicate 3 (0, asked) ++
    [(2, calm)] ++ List.replicate 3 (1, calm))

theorem active_tasks_unique_secondWaits :
    ∃ p, (system 3).run (.start demoSvc askedTwice lecture) secondWaits = some p ∧
      (p.store.tasks.rows.map fun r => (r.id, r.status)) = [(100, .processing)] ∧
      UniqueActive p.store.tasks :=
  ⟨_, rfl, rfl, @active_tasks_unique 3 demoSvc askedTwice lecture secondWaits _
    (fun r hr => by cases hr) rfl⟩

end Richter.Lessons
