import Richter.Lib.Machine
import Richter.TaskQueue.Task

/-! The queue as a machine over the statements of its API, what a statement can do to one row, and
the invariant of the rows. -/

namespace Richter.TaskQueue

open Lib

/-- The statements through which the server, the scanner and the workers change the queue. -/
inductive Stmt
  | insertTask (p : InsertTaskParams) (now : Timestamptz)
  | claimNextInqueuedTask (workerId : UUID) (taskTypes : List String) (now : Timestamptz)
      (locked : UUID → Bool)
  | heartbeatTask (id : UUID) (workerId : Option UUID) (now : Timestamptz)
  | reapStaleProcessingBatch (limit : Nat) (staleBefore now : Timestamptz)
      (locked : UUID → Bool)
  | requeueOrphanedInqueuedBatch (limit : Nat) (staleBefore now : Timestamptz)
      (locked : UUID → Bool)
  | markSucceeded (id : UUID) (outputPayload : Option Bytes) (workerId : Option UUID)
      (now : Timestamptz)
  | markFailed (id : UUID) (errorMsg : Option String) (workerId : Option UUID)
      (now : Timestamptz)
  | cancelTask (id : UUID) (now : Timestamptz)
  | setTaskCheckpoint (id : UUID) (outputPayload : Option Bytes) (workerId : Option UUID)
      (now : Timestamptz)
  | updateTaskProgress (id : UUID) (step : String) (current total : Int) (message : String)
      (now : Timestamptz)

/-- The table after a statement.  One that fails leaves the table as it was. -/
def exec (t : TaskTable) : Stmt → TaskTable
  | .insertTask p now => (insertTask p now t).getD t
  | .claimNextInqueuedTask workerId taskTypes now locked =>
      (claimNextInqueuedTask workerId taskTypes now locked t).1
  | .heartbeatTask id workerId now => (heartbeatTask id workerId now t).1
  | .reapStaleProcessingBatch limit staleBefore now locked =>
      reapStaleProcessingBatch limit staleBefore now locked t
  | .requeueOrphanedInqueuedBatch limit staleBefore now locked =>
      requeueOrphanedInqueuedBatch limit staleBefore now locked t
  | .markSucceeded id outputPayload workerId now => markSucceeded id outputPayload workerId now t
  | .markFailed id errorMsg workerId now => markFailed id errorMsg workerId now t
  | .cancelTask id now => cancelTask id now t
  | .setTaskCheckpoint id outputPayload workerId now =>
      setTaskCheckpoint id outputPayload workerId now t
  | .updateTaskProgress id step current total message now =>
      updateTaskProgress id step current total message now t

def queue : Machine TaskTable Stmt where
  step t s := some (exec t s)

/-- The worker that claims in a statement. -/
def Stmt.claimer : Stmt → Option UUID
  | .claimNextInqueuedTask workerId .. => some workerId
  | _ => none

/-- The task and the worker id of a statement that names its row's owner. -/
def Stmt.owner : Stmt → Option (UUID × Option UUID)
  | .heartbeatTask id workerId _ => some (id, workerId)
  | .markSucceeded id _ workerId _ => some (id, workerId)
  | .markFailed id _ workerId _ => some (id, workerId)
  | .setTaskCheckpoint id _ workerId _ => some (id, workerId)
  | _ => none

/-- What a statement can do to a row, when `claimer` is the worker that claims in it. -/
inductive RowStep (claimer : Option UUID) (r : Task) : Task → Prop
  | same : RowStep claimer r r
  | claimed (workerId : UUID) (now : Timestamptz) :
      claimer = some workerId → r.status = .inqueued → RowStep claimer r (r.setClaimed workerId now)
  | heartbeat (now : Timestamptz) :
      r.status = .processing → RowStep claimer r (r.setHeartbeat now)
  | reaped (queueSeq : Int) (now : Timestamptz) :
      r.status = .processing → RowStep claimer r (r.setReaped queueSeq now)
  | requeued (queueSeq : Int) (now : Timestamptz) :
      r.status = .inqueued → RowStep claimer r (r.setRequeued queueSeq now)
  | succeeded (outputPayload : Option Bytes) (now : Timestamptz) :
      r.status = .processing → RowStep claimer r (r.setSucceeded outputPayload now)
  | failed (errorMsg : Option String) (now : Timestamptz) :
      r.status = .processing → RowStep claimer r (r.setFailed errorMsg now)
  | cancelled (now : Timestamptz) :
      r.status.terminal = false → RowStep claimer r (r.setCancelled now)
  | progress (step : String) (current total : Int) (message : String) (now : Timestamptz) :
      RowStep claimer r (r.setProgress step current total message now)
  | checkpoint (outputPayload : Option Bytes) (now : Timestamptz) :
      r.status = .processing → RowStep claimer r (r.setCheckpoint outputPayload now)

section RowSteps

variable {t : TaskTable} {claimer : Option UUID}

theorem claimCandidate_spec {taskTypes : List String} {locked : UUID → Bool} {r : Task}
    (h : claimCandidate taskTypes locked t = some r) : r ∈ t.rows ∧ r.status = .inqueued := by
  have hMem := List.mem_of_head? h
  rw [List.mem_insertionSort, List.mem_filter] at hMem
  simp only [Bool.and_eq_true, decide_eq_true_eq] at hMem
  exact ⟨hMem.1, hMem.2.1.1⟩

theorem staleProcessing_spec {limit : Nat} {staleBefore : Timestamptz} {locked : UUID → Bool}
    {r : Task} (h : r ∈ staleProcessing limit staleBefore locked t) :
    r ∈ t.rows ∧ r.status = .processing := by
  have hMem := List.mem_of_mem_take h
  rw [List.mem_insertionSort, List.mem_filter] at hMem
  simp only [Bool.and_eq_true, decide_eq_true_eq] at hMem
  exact ⟨hMem.1, hMem.2.1.1⟩

theorem orphanedInqueued_spec {limit : Nat} {staleBefore : Timestamptz} {locked : UUID → Bool}
    {r : Task} (h : r ∈ orphanedInqueued limit staleBefore locked t) :
    r ∈ t.rows ∧ r.status = .inqueued := by
  have hMem := List.mem_of_mem_take h
  rw [List.mem_insertionSort, List.mem_filter] at hMem
  simp only [Bool.and_eq_true, decide_eq_true_eq] at hMem
  exact ⟨hMem.1, hMem.2.1.1⟩

/-- A row with the id of a selected row is that row. -/
theorem selected_spec {base : List Task} {P : Task → Prop} (hBase : ∀ b ∈ base, b ∈ t.rows ∧ P b)
    {r : Task} (hr : r ∈ t.rows) (h : (base.any fun b => r.id = b.id) = true) : P r := by
  obtain ⟨b, hb, hId⟩ := List.any_eq_true.mp h
  rw [t.eq_of_key hr (hBase b hb).1 (of_decide_eq_true hId)]
  exact (hBase b hb).2

theorem ownedBy_iff {id : UUID} {workerId : Option UUID} {r : Task} :
    r.ownedBy id workerId = true ↔
      r.id = id ∧ (∃ w, r.workerId = some w ∧ workerId = some w) ∧ r.status = .processing := by
  simp [Task.ownedBy, and_assoc]

theorem find_update_rowStep {p : Task → Bool} {f : Task → Task} (hf : ∀ r, (f r).id = r.id)
    (h : ∀ r ∈ t.rows, p r = true → RowStep claimer r (f r)) {k : UUID} {r : Task}
    (hr : t.find k = some r) : ∃ r', (t.update p f hf).find k = some r' ∧ RowStep claimer r r' := by
  refine ⟨if p r then f r else r, by rw [Table.find_update, hr]; rfl, ?_⟩
  split
  · next hp => exact h r (Table.find_eq_some_iff.mp hr).1 hp
  · exact .same

theorem find_exec_insertTask (p : InsertTaskParams) (now : Timestamptz) {k : UUID} {r : Task}
    (hr : t.find k = some r) : (exec t (.insertTask p now)).find k = some r := by
  cases hIns : insertTask p now t with
  | none => simpa [exec, hIns] using hr
  | some t' =>
    have hNew := Table.find_of_insert hIns
    rw [exec, hIns, Option.getD_some, Table.find_insert hIns, if_neg, hr]
    rintro rfl
    rw [hNew] at hr
    cases hr

/-- Every statement keeps every row, and changes it in one of the ways of `RowStep`. -/
theorem exec_rowStep (s : Stmt) {k : UUID} {r : Task} (hr : t.find k = some r) :
    ∃ r', (exec t s).find k = some r' ∧ RowStep s.claimer r r' := by
  cases s with
  | insertTask p now => exact ⟨r, find_exec_insertTask p now hr, .same⟩
  | claimNextInqueuedTask workerId taskTypes now locked =>
    simp only [exec, claimNextInqueuedTask]
    cases hc : claimCandidate taskTypes locked t with
    | none => exact ⟨r, hr, .same⟩
    | some c =>
      refine find_update_rowStep (Task.setClaimed_id workerId now) (fun r hMem hp => ?_) hr
      obtain ⟨hcMem, hcStatus⟩ := claimCandidate_spec hc
      have hEq : r = c := t.eq_of_key hMem hcMem (of_decide_eq_true hp)
      exact .claimed workerId now rfl (hEq ▸ hcStatus)
  | heartbeatTask id workerId now =>
    exact find_update_rowStep (Task.setHeartbeat_id now)
      (fun r _ hp => .heartbeat now (ownedBy_iff.mp hp).2.2) hr
  | reapStaleProcessingBatch limit staleBefore now locked =>
    exact find_update_rowStep (fun r => Task.setReaped_id _ now r)
      (fun r hMem hp => .reaped _ now (selected_spec (fun b => staleProcessing_spec) hMem hp)) hr
  | requeueOrphanedInqueuedBatch limit staleBefore now locked =>
    exact find_update_rowStep (fun r => Task.setRequeued_id _ now r)
      (fun r hMem hp => .requeued _ now (selected_spec (fun b => orphanedInqueued_spec) hMem hp)) hr
  | markSucceeded id outputPayload workerId now =>
    exact find_update_rowStep (Task.setSucceeded_id outputPayload now)
      (fun r _ hp => .succeeded _ now (ownedBy_iff.mp hp).2.2) hr
  | markFailed id errorMsg workerId now =>
    exact find_update_rowStep (Task.setFailed_id errorMsg now)
      (fun r _ hp => .failed _ now (ownedBy_iff.mp hp).2.2) hr
  | cancelTask id now =>
    refine find_update_rowStep (Task.setCancelled_id now) (fun r _ hp => .cancelled now ?_) hr
    simp only [Bool.and_eq_true, TaskStatus.active_eq_not_terminal, Bool.not_eq_true'] at hp
    exact hp.2
  | setTaskCheckpoint id outputPayload workerId now =>
    exact find_update_rowStep (Task.setCheckpoint_id outputPayload now)
      (fun r _ hp => .checkpoint _ now (ownedBy_iff.mp hp).2.2) hr
  | updateTaskProgress id step current total message now =>
    exact find_update_rowStep (Task.setProgress_id step message current total now)
      (fun r _ _ => .progress step current total message now) hr

/-- What every statement keeps of a row that does not set an output. -/
structure Task.Kept (r r' : Task) : Prop where
  taskType : r'.taskType = r.taskType
  inputPayload : r'.inputPayload = r.inputPayload
  outputPayload : r'.outputPayload = r.outputPayload
  succeeded : r'.status = .succeeded → r.status = .succeeded

theorem Task.Kept.refl (r : Task) : r.Kept r := ⟨rfl, rfl, rfl, fun h => h⟩

def Stmt.setsOutput : Stmt → Bool
  | .markSucceeded .. | .setTaskCheckpoint .. => true
  | _ => false

theorem find_update_kept {p : Task → Bool} {f : Task → Task} (hf : ∀ r, (f r).id = r.id)
    (h : ∀ r : Task, r.Kept (f r)) {k : UUID} {r : Task} (hr : t.find k = some r) :
    ∃ r', (t.update p f hf).find k = some r' ∧ r.Kept r' := by
  refine ⟨if p r then f r else r, by rw [Table.find_update, hr]; rfl, ?_⟩
  split
  · exact h r
  · exact .refl r

theorem exec_kept {s : Stmt} (hs : s.setsOutput = false) {k : UUID} {r : Task}
    (hr : t.find k = some r) : ∃ r', (exec t s).find k = some r' ∧ r.Kept r' := by
  cases s with
  | insertTask p now => exact ⟨r, find_exec_insertTask p now hr, .refl r⟩
  | claimNextInqueuedTask workerId taskTypes now locked =>
    simp only [exec, claimNextInqueuedTask]
    cases claimCandidate taskTypes locked t with
    | none => exact ⟨r, hr, .refl r⟩
    | some c =>
      exact find_update_kept (Task.setClaimed_id workerId now)
        (fun r => ⟨rfl, rfl, rfl, fun h => by cases h⟩) hr
  | heartbeatTask id workerId now =>
    exact find_update_kept (Task.setHeartbeat_id now) (fun r => ⟨rfl, rfl, rfl, fun h => h⟩) hr
  | reapStaleProcessingBatch limit staleBefore now locked =>
    exact find_update_kept (fun r => Task.setReaped_id _ now r)
      (fun r => ⟨rfl, rfl, rfl, fun h => by cases h⟩) hr
  | requeueOrphanedInqueuedBatch limit staleBefore now locked =>
    exact find_update_kept (fun r => Task.setRequeued_id _ now r)
      (fun r => ⟨rfl, rfl, rfl, fun h => h⟩) hr
  | markFailed id errorMsg workerId now =>
    exact find_update_kept (Task.setFailed_id errorMsg now)
      (fun r => ⟨rfl, rfl, rfl, fun h => by cases h⟩) hr
  | cancelTask id now =>
    exact find_update_kept (Task.setCancelled_id now)
      (fun r => ⟨rfl, rfl, rfl, fun h => by cases h⟩) hr
  | updateTaskProgress id step current total message now =>
    exact find_update_kept (Task.setProgress_id step message current total now)
      (fun r => ⟨rfl, rfl, rfl, fun h => h⟩) hr
  | markSucceeded | setTaskCheckpoint => cases hs

/-- A claim returns the row that it has changed. -/
theorem find_claimNextInqueuedTask {workerId : UUID} {taskTypes : List String} {now : Timestamptz}
    {locked : UUID → Bool} {t' : TaskTable} {r : Task}
    (h : claimNextInqueuedTask workerId taskTypes now locked t = (t', some r)) :
    t'.find r.id = some r ∧
      ∃ c, t.find r.id = some c ∧ c.status = .inqueued ∧ r = c.setClaimed workerId now := by
  unfold claimNextInqueuedTask at h
  split at h
  · cases h
  · next c hc =>
    cases h
    obtain ⟨hMem, hStatus⟩ := claimCandidate_spec hc
    have hFind : t.find c.id = some c := Table.mem_rows_iff.mp hMem
    refine ⟨?_, c, hFind, hStatus, rfl⟩
    rw [Table.find_update, Task.setClaimed_id, hFind]
    simp

theorem find_insertTask {p : InsertTaskParams} {now : Timestamptz} {t' : TaskTable}
    (h : insertTask p now t = some t') : t'.find p.id = some (p.row (maxQueueSeq t + 1) now) :=
  (Table.find_insert h p.id).trans (if_pos rfl)

/-- A row after a statement was there before it, or the statement inserted it. -/
theorem exec_find_inv {s : Stmt} {k : UUID} {r' : Task} (h : (exec t s).find k = some r') :
    (∃ r, t.find k = some r ∧ RowStep s.claimer r r') ∨
      (t.find k = none ∧ ∃ p queueSeq now, s = .insertTask p now ∧ r' = p.row queueSeq now) := by
  cases hr : t.find k with
  | some r =>
    obtain ⟨r₁, hr₁, hStep⟩ := exec_rowStep s hr
    rw [h, Option.some.injEq] at hr₁
    exact .inl ⟨r, rfl, hr₁ ▸ hStep⟩
  | none =>
    refine .inr ⟨rfl, ?_⟩
    cases s with
    | insertTask p now =>
      cases hIns : insertTask p now t with
      | none => rw [exec, hIns, Option.getD_none, hr] at h; cases h
      | some t' =>
        rw [exec, hIns, Option.getD_some, Table.find_insert hIns, hr] at h
        split at h
        · cases h
          exact ⟨p, _, now, rfl, rfl⟩
        · cases h
    | claimNextInqueuedTask workerId taskTypes now locked =>
      simp only [exec, claimNextInqueuedTask] at h
      split at h <;> simp [hr] at h
    | _ =>
      simp [exec, heartbeatTask, reapStaleProcessingBatch, requeueOrphanedInqueuedBatch,
        markSucceeded, markFailed, cancelTask, setTaskCheckpoint, updateTaskProgress, hr] at h

end RowSteps

/-! The worker that holds a row, which is what the guard of the owner's statements checks. -/

/-- The worker under which a row is processing. -/
def Task.holder (r : Task) : Option UUID := if r.status = .processing then r.workerId else none

/-- The worker under which the task `id` is processing. -/
def holder (t : TaskTable) (id : UUID) : Option UUID := (t.find id).bind Task.holder

theorem RowStep.holder {r r' : Task} {w : UUID} (hStep : RowStep none r r')
    (h : r'.holder = some w) : r.holder = some w := by
  cases hStep with
  | claimed _ _ hClaimer => cases hClaimer
  | same | heartbeat | requeued | progress | checkpoint => exact h
  | reaped | succeeded | failed | cancelled => cases h

section Holder

variable {t : TaskTable} {s : Stmt} {id w : UUID}

/-- Only a claim gives a row to a worker. -/
theorem holder_exec (hClaimer : s.claimer = none) (h : holder (exec t s) id = some w) :
    holder t id = some w := by
  obtain ⟨r', hr', hw⟩ := Option.bind_eq_some_iff.mp h
  obtain ⟨r, hr, hStep⟩ | ⟨_, p, queueSeq, now, _, rfl⟩ := exec_find_inv hr'
  · rw [hClaimer] at hStep
    rw [holder, hr]
    exact hStep.holder hw
  · cases hw

theorem holder_of_ownedBy {r : Task} (hr : t.find id = some r)
    (h : r.ownedBy id (some w) = true) : holder t id = some w := by
  obtain ⟨_, ⟨w', hw, hw'⟩, hs⟩ := ownedBy_iff.mp h
  cases hw'
  rw [holder, hr, Option.bind_some, Task.holder, if_pos hs, hw]

/-- A statement that names the row's owner changes that row only, and only when the owner holds
it. -/
theorem holder_of_exec_ne {k : UUID} (hOwner : s.owner = some (id, some w))
    (h : (exec t s).find k ≠ t.find k) : k = id ∧ holder t id = some w := by
  have hRow : ∃ r, t.find k = some r ∧ r.ownedBy id (some w) = true := by
    cases s <;> cases hOwner
    · exact Table.find_update_ne (Task.setHeartbeat_id _) h
    · exact Table.find_update_ne (Task.setSucceeded_id _ _) h
    · exact Table.find_update_ne (Task.setFailed_id _ _) h
    · exact Table.find_update_ne (Task.setCheckpoint_id _ _) h
  obtain ⟨r, hr, hOwned⟩ := hRow
  have hk : k = id := (Table.find_key hr).symm.trans (ownedBy_iff.mp hOwned).1
  subst hk
  exact ⟨rfl, holder_of_ownedBy hr hOwned⟩

/-- A heartbeat that affects no row finds that the worker does not hold the task. -/
theorem holder_of_heartbeatTask_zero {now : Timestamptz}
    (h : (heartbeatTask id (some w) now t).2 = 0) : holder t id ≠ some w := by
  intro hHolder
  obtain ⟨r, hr, hw⟩ := Option.bind_eq_some_iff.mp hHolder
  obtain ⟨hMem, hId⟩ := Table.find_eq_some_iff.mp hr
  rw [heartbeatTask, List.countP_eq_zero] at h
  refine h r hMem (ownedBy_iff.mpr ?_)
  unfold Task.holder at hw
  split at hw
  · next hs => exact ⟨hId, ⟨w, hw, rfl⟩, hs⟩
  · cases hw

/-- A claim gives one row to the worker, and leaves the others as they were. -/
theorem holder_claim {taskTypes : List String} {now : Timestamptz} {locked : UUID → Bool}
    {t' : TaskTable} {r : Task}
    (h : claimNextInqueuedTask w taskTypes now locked t = (t', some r)) :
    (∃ c, claimCandidate taskTypes locked t = some c ∧ c.id = r.id) ∧
      ∀ k, holder t' k = if k = r.id then some w else holder t k := by
  unfold claimNextInqueuedTask at h
  split at h
  · cases h
  · next c hc =>
    cases h
    refine ⟨⟨c, hc, rfl⟩, fun k => ?_⟩
    rw [Task.setClaimed_id]
    by_cases hk : k = c.id
    · have hFind : t.find k = some c :=
        Table.find_eq_some_iff.mpr ⟨(claimCandidate_spec hc).1, hk.symm⟩
      rw [if_pos hk, holder, Table.find_update, hFind]
      simp [Task.holder, Task.setClaimed]
    · rw [if_neg hk, holder, Table.find_update, holder]
      cases hFind : t.find k with
      | none => rfl
      | some r =>
        have hId : r.id ≠ c.id := Table.find_key hFind ▸ hk
        simp [hId]

end Holder

/-- The columns of a row agree with its status. -/
structure Task.WellFormed (r : Task) : Prop where
  worker : r.status = .processing ↔ r.workerId ≠ none
  heartbeat : r.workerId ≠ none ↔ r.heartbeat ≠ none
  finished : r.finishedAt ≠ none ↔ r.status ∈ [.succeeded, .failed, .cancelled]

theorem InsertTaskParams.row_wellFormed (p : InsertTaskParams) (queueSeq : Int)
    (now : Timestamptz) : (p.row queueSeq now).WellFormed :=
  ⟨by simp [row], by simp [row], by simp [row]⟩

theorem RowStep.wellFormed {claimer : Option UUID} {r r' : Task} (hStep : RowStep claimer r r')
    (h : r.WellFormed) : r'.WellFormed := by
  obtain ⟨hWorker, hHeartbeat, hFinished⟩ := h
  cases hStep with
  | same => exact ⟨hWorker, hHeartbeat, hFinished⟩
  | claimed workerId now _ hs =>
    exact ⟨by simp [Task.setClaimed], by simp [Task.setClaimed],
      by simpa [Task.setClaimed, hs] using hFinished⟩
  | heartbeat now hs =>
    exact ⟨hWorker, by simpa [Task.setHeartbeat] using hWorker.mp hs, hFinished⟩
  | reaped queueSeq now hs =>
    exact ⟨by simp [Task.setReaped], by simp [Task.setReaped],
      by simpa [Task.setReaped, hs] using hFinished⟩
  | requeued queueSeq now hs => exact ⟨hWorker, hHeartbeat, hFinished⟩
  | succeeded outputPayload now hs =>
    exact ⟨by simp [Task.setSucceeded], by simp [Task.setSucceeded], by simp [Task.setSucceeded]⟩
  | failed errorMsg now hs =>
    exact ⟨by simp [Task.setFailed], by simp [Task.setFailed], by simp [Task.setFailed]⟩
  | cancelled now hs =>
    exact ⟨by simp [Task.setCancelled], by simp [Task.setCancelled], by simp [Task.setCancelled]⟩
  | progress step current total message now => exact ⟨hWorker, hHeartbeat, hFinished⟩
  | checkpoint outputPayload now hs => exact ⟨hWorker, hHeartbeat, hFinished⟩

/-- What a terminal row keeps. -/
structure Task.Settled (r r' : Task) : Prop where
  status : r'.status = r.status
  outputPayload : r'.outputPayload = r.outputPayload
  finishedAt : r'.finishedAt = r.finishedAt

theorem RowStep.settled {claimer : Option UUID} {r r' : Task} (hStep : RowStep claimer r r')
    (h : r.status.terminal = true) : r.Settled r' := by
  cases hStep with
  | same | progress => exact ⟨rfl, rfl, rfl⟩
  | claimed _ _ _ hs | heartbeat _ hs | reaped _ _ hs | requeued _ _ hs | succeeded _ _ hs
  | failed _ _ hs | checkpoint _ _ hs => rw [hs] at h; cases h
  | cancelled now hs => rw [hs] at h; cases h

theorem Task.Settled.trans {r₁ r₂ r₃ : Task} (h : r₁.Settled r₂) (h' : r₂.Settled r₃) :
    r₁.Settled r₃ :=
  ⟨h'.status.trans h.status, h'.outputPayload.trans h.outputPayload,
    h'.finishedAt.trans h.finishedAt⟩

def AllWellFormed (t : TaskTable) : Prop := ∀ r ∈ t.rows, r.WellFormed

theorem AllWellFormed.exec {t : TaskTable} (h : AllWellFormed t) (s : Stmt) :
    AllWellFormed (exec t s) := by
  intro r' hr'
  obtain ⟨r, hr, hStep⟩ | ⟨_, p, queueSeq, now, _, rfl⟩ :=
    exec_find_inv (Table.mem_rows_iff.mp hr')
  · exact hStep.wellFormed (h r (Table.find_eq_some_iff.mp hr).1)
  · exact p.row_wellFormed queueSeq now

/-- A statement that names another owner than the row's leaves the table as it was. -/
theorem exec_of_owner_ne {t : TaskTable} {s : Stmt} {id : UUID} {workerId : Option UUID}
    {r : Task} (hOwner : s.owner = some (id, workerId)) (hr : t.find id = some r)
    (h : r.workerId ≠ workerId) : exec t s = t := by
  have hNot : ∀ r ∈ t.rows, r.ownedBy id workerId = false := by
    intro r₁ hr₁
    rw [← Bool.not_eq_true, ownedBy_iff]
    rintro ⟨hId, ⟨w, hw, hw'⟩, _⟩
    rw [Table.mem_rows_iff, hId, hr, Option.some.injEq] at hr₁
    exact h (by rw [hr₁, hw, hw'])
  cases s <;> cases hOwner
  · exact Table.update_eq_self (Task.setHeartbeat_id _) hNot
  · exact Table.update_eq_self (Task.setSucceeded_id _ _) hNot
  · exact Table.update_eq_self (Task.setFailed_id _ _) hNot
  · exact Table.update_eq_self (Task.setCheckpoint_id _ _) hNot

/-- Every terminal row of `t` is still there in `t'`, and settled. -/
def TerminalKept (t t' : TaskTable) : Prop :=
  ∀ id r, t.find id = some r → r.status.terminal = true →
    ∃ r', t'.find id = some r' ∧ r.Settled r'

theorem TerminalKept.refl (t : TaskTable) : TerminalKept t t :=
  fun _ r hr _ => ⟨r, hr, rfl, rfl, rfl⟩

theorem TerminalKept.trans {t₁ t₂ t₃ : TaskTable} (h : TerminalKept t₁ t₂)
    (h' : TerminalKept t₂ t₃) : TerminalKept t₁ t₃ := by
  intro id r hr hTerm
  obtain ⟨r₂, hr₂, hSet⟩ := h id r hr hTerm
  obtain ⟨r₃, hr₃, hSet'⟩ := h' id r₂ hr₂ (hSet.status ▸ hTerm)
  exact ⟨r₃, hr₃, hSet.trans hSet'⟩

theorem TerminalKept.exec (t : TaskTable) (s : Stmt) : TerminalKept t (exec t s) := by
  intro id r hr hTerm
  obtain ⟨r', hr', hStep⟩ := exec_rowStep s hr
  exact ⟨r', hr', hStep.settled hTerm⟩

section Runs

variable {t : TaskTable} {stmts : List Stmt}

theorem run_allWellFormed (hRun : queue.run .empty stmts = some t) : AllWellFormed t := by
  refine (Machine.Runs.of_run hRun).invariant (fun t s t' _ hStep h => ?_) ?_
  · cases hStep
    exact h.exec s
  · intro r hr
    cases hr

theorem run_terminalKept {t' : TaskTable} (hRun : queue.run t stmts = some t') :
    TerminalKept t t' := by
  refine (Machine.Runs.of_run hRun).rel (fun _ => True) TerminalKept.refl
    (fun _ _ _ => TerminalKept.trans) (fun t s t' _ hStep _ => ?_) trivial
  cases hStep
  exact ⟨trivial, .exec t s⟩

/-- After any run of the statements from the empty table, the columns of every row agree with its
status, no later run changes what a terminal row settled, and a statement that names another owner
than its row's changes nothing. -/
theorem task_row_invariant (hRun : queue.run .empty stmts = some t) :
    (∀ r ∈ t.rows, r.WellFormed) ∧
      (∀ later t', queue.run t later = some t' → TerminalKept t t') ∧
      ∀ s id workerId r, s.owner = some (id, workerId) → t.find id = some r →
        r.workerId ≠ workerId → exec t s = t :=
  ⟨run_allWellFormed hRun, fun _ _ => run_terminalKept,
    fun _ _ _ _ hOwner hr => exec_of_owner_ne hOwner hr⟩

end Runs

/-- A task that one worker claims and finishes while another reports on it. -/
def finishedTrace : List Stmt :=
  [.insertTask ⟨1, 10, none, "transcribe", none, 20⟩ 0,
    .claimNextInqueuedTask 7 ["transcribe"] 1 fun _ => false,
    .heartbeatTask 1 (some 8) 2,
    .setTaskCheckpoint 1 (some [3]) (some 7) 3,
    .markSucceeded 1 (some [4]) (some 7) 4]

theorem task_row_invariant_finishedTrace :
    ∃ t, queue.run .empty finishedTrace = some t ∧ (∀ r ∈ t.rows, r.WellFormed) ∧
      (∀ later t', queue.run t later = some t' → TerminalKept t t') ∧
      ∀ s id workerId r, s.owner = some (id, workerId) → t.find id = some r →
        r.workerId ≠ workerId → exec t s = t :=
  ⟨_, rfl, @task_row_invariant _ finishedTrace rfl⟩

end Richter.TaskQueue
