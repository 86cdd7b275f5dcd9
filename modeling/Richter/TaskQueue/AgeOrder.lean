import Richter.TaskQueue.Rows

/-! The order in which tasks are claimed after the scanner has put a batch of them back into the
queue (`sql/queries/tasks.sql`). -/

namespace Richter.TaskQueue

open Lib

section Batch

variable {batch : List Task} {a b : Task}

theorem rowNumber_pos (batch : List Task) (id : UUID) : 0 < rowNumber batch id := by
  unfold rowNumber
  omega

/-- A selected row is numbered by its position. -/
theorem rowNumber_getElem (hNodup : (batch.map Task.id).Nodup) {i : Nat} (hi : i < batch.length) :
    rowNumber batch batch[i].id = i + 1 := by
  have hFirst : batch.findIdx (fun r => r.id = batch[i].id) = i := by
    rw [List.findIdx_eq hi]
    refine ⟨by simp, fun j hj => ?_⟩
    have hj' : j < batch.length := by omega
    have hDistinct : batch[j].id ≠ batch[i].id := fun hEq => by
      have hSame : batch[j] = batch[i] :=
        List.inj_on_of_nodup_map hNodup (List.getElem_mem hj') (List.getElem_mem hi) hEq
      have hji : j = i := (List.Nodup.getElem_inj_iff (List.Nodup.of_map _ hNodup)).mp hSame
      omega
    simpa using hDistinct
  rw [rowNumber, hFirst]

theorem rowNumber_inj (hNodup : (batch.map Task.id).Nodup) (ha : a ∈ batch) (hb : b ∈ batch)
    (h : rowNumber batch a.id = rowNumber batch b.id) : a = b := by
  obtain ⟨i, hi, rfl⟩ := List.getElem_of_mem ha
  obtain ⟨j, hj, rfl⟩ := List.getElem_of_mem hb
  rw [rowNumber_getElem hNodup hi, rowNumber_getElem hNodup hj] at h
  have hij : i = j := by omega
  simp only [hij]

/-- The numbers follow the column by which the rows were selected. -/
theorem rowNumber_lt_of_lt {waited : Task → Timestamptz} (hNodup : (batch.map Task.id).Nodup)
    (hSorted : batch.Pairwise fun a b => waited a ≤ waited b) (ha : a ∈ batch) (hb : b ∈ batch)
    (h : waited a < waited b) : rowNumber batch a.id < rowNumber batch b.id := by
  obtain ⟨i, hi, rfl⟩ := List.getElem_of_mem ha
  obtain ⟨j, hj, rfl⟩ := List.getElem_of_mem hb
  rw [rowNumber_getElem hNodup hi, rowNumber_getElem hNodup hj]
  have hij : i < j := by
    rcases Nat.lt_trichotomy i j with hij | hij | hij
    · exact hij
    · subst hij
      exact absurd h (lt_irrefl _)
    · exact absurd (List.pairwise_iff_getElem.mp hSorted j i hj hi hij) (not_le.mpr h)
  omega

end Batch

section Ends

variable {t : TaskTable} {q : Task}

theorem minQueueSeq_le (hq : q ∈ t.rows) (hStatus : q.status = .inqueued) :
    minQueueSeq t ≤ q.queueSeq := by
  have hMem : q.queueSeq ∈ (t.rows.filter fun r => r.status = .inqueued).map Task.queueSeq :=
    List.mem_map.mpr ⟨q, List.mem_filter.mpr ⟨hq, decide_eq_true hStatus⟩, rfl⟩
  unfold minQueueSeq
  cases hMin : ((t.rows.filter fun r => r.status = .inqueued).map Task.queueSeq).min? with
  | none =>
    rw [List.min?_eq_none_iff] at hMin
    rw [hMin] at hMem
    cases hMem
  | some m => exact (List.min?_eq_some_iff.mp hMin).2 _ hMem

theorem le_maxQueueSeq (hq : q ∈ t.rows) (hStatus : q.status = .inqueued) :
    q.queueSeq ≤ maxQueueSeq t := by
  have hMem : q.queueSeq ∈ (t.rows.filter fun r => r.status = .inqueued).map Task.queueSeq :=
    List.mem_map.mpr ⟨q, List.mem_filter.mpr ⟨hq, decide_eq_true hStatus⟩, rfl⟩
  unfold maxQueueSeq
  cases hMax : ((t.rows.filter fun r => r.status = .inqueued).map Task.queueSeq).max? with
  | none =>
    rw [List.max?_eq_none_iff] at hMax
    rw [hMax] at hMem
    cases hMem
  | some m => exact (List.max?_eq_some_iff.mp hMax).2 _ hMem

/-- The rows that `ClaimNextInqueuedTask` can select. -/
def Claimable (taskTypes : List String) (locked : UUID → Bool) (r : Task) : Prop :=
  r.status = .inqueued ∧ taskTypes.contains r.taskType = true ∧ locked r.id = false

/-- `ClaimNextInqueuedTask` selects a row with the least `queue_seq`. -/
theorem claimCandidate_le {taskTypes : List String} {locked : UUID → Bool} {c : Task}
    (h : claimCandidate taskTypes locked t = some c) (hq : q ∈ t.rows)
    (hClaimable : Claimable taskTypes locked q) : c.queueSeq ≤ q.queueSeq := by
  obtain ⟨hStatus, hType, hFree⟩ := hClaimable
  unfold claimCandidate at h
  generalize hRows : (t.rows.filter fun r => r.status = .inqueued &&
    taskTypes.contains r.taskType && !locked r.id) = rows at h
  have hMem : q ∈ rows.insertionSort fun a b => a.queueSeq ≤ b.queueSeq := by
    rw [List.mem_insertionSort, ← hRows, List.mem_filter]
    simp [hq, hStatus, hFree, List.contains_iff_mem.mp hType]
  have hSorted := List.pairwise_insertionSort (fun a b : Task => a.queueSeq ≤ b.queueSeq) rows
  cases hList : rows.insertionSort fun a b => a.queueSeq ≤ b.queueSeq with
  | nil => simp [hList] at h
  | cons d rest =>
    rw [hList] at h hMem hSorted
    have hHead : d = c := Option.some.inj h
    rw [← hHead]
    rcases List.mem_cons.mp hMem with rfl | hRest
    · exact le_rfl
    · exact (List.pairwise_cons.mp hSorted).1 q hRest

end Ends

/-- The rows of the batch wait in the table, in the order of `waited`, each with its own number. -/
structure KeepsOrder (waited : Task → Timestamptz) (batch : List Task) (t : TaskTable) : Prop where
  inqueued : ∀ a ∈ batch, ∃ a', t.find a.id = some a' ∧ a'.status = .inqueued
  inOrder : ∀ a ∈ batch, ∀ b ∈ batch, waited a < waited b → ∀ a' b', t.find a.id = some a' →
    t.find b.id = some b' → a'.queueSeq < b'.queueSeq
  distinct : ∀ a ∈ batch, ∀ b ∈ batch, a ≠ b → ∀ a' b', t.find a.id = some a' →
    t.find b.id = some b' → a'.queueSeq ≠ b'.queueSeq

/-- `ClaimNextInqueuedTask` takes no row of the batch while one that has waited longer can be
taken. -/
def ClaimsOldestFirst (waited : Task → Timestamptz) (batch : List Task) (t : TaskTable) : Prop :=
  ∀ taskTypes locked c, claimCandidate taskTypes locked t = some c → ∀ b ∈ batch, b.id = c.id →
    ∀ a ∈ batch, (∀ a', t.find a.id = some a' → Claimable taskTypes locked a') →
      waited b ≤ waited a

/-- `RequeueOrphanedInqueuedBatch` moves its batch ahead of the other rows that wait, oldest
first. -/
structure RequeueKeepsAge (limit : Nat) (staleBefore now : Timestamptz) (locked : UUID → Bool)
    (t : TaskTable) : Prop where
  keepsOrder : KeepsOrder Task.updatedAt (orphanedInqueued limit staleBefore locked t)
    (requeueOrphanedInqueuedBatch limit staleBefore now locked t)
  claimsOldestFirst : ClaimsOldestFirst Task.updatedAt (orphanedInqueued limit staleBefore locked t)
    (requeueOrphanedInqueuedBatch limit staleBefore now locked t)
  ahead : ∀ a ∈ orphanedInqueued limit staleBefore locked t, ∀ a' q,
    (requeueOrphanedInqueuedBatch limit staleBefore now locked t).find a.id = some a' →
    q ∈ (requeueOrphanedInqueuedBatch limit staleBefore now locked t).rows →
    q.status = .inqueued → (∀ b ∈ orphanedInqueued limit staleBefore locked t, b.id ≠ q.id) →
    a'.queueSeq < q.queueSeq

/-- The time of the last heartbeat of a row that has one. -/
def lastHeartbeat (r : Task) : Timestamptz := r.heartbeat.getD 0

/-- `ReapStaleProcessingBatch` appends its batch to the rows that wait, oldest heartbeat first. -/
structure ReapKeepsAge (limit : Nat) (staleBefore now : Timestamptz) (locked : UUID → Bool)
    (t : TaskTable) : Prop where
  keepsOrder : KeepsOrder lastHeartbeat (staleProcessing limit staleBefore locked t)
    (reapStaleProcessingBatch limit staleBefore now locked t)
  claimsOldestFirst : ClaimsOldestFirst lastHeartbeat (staleProcessing limit staleBefore locked t)
    (reapStaleProcessingBatch limit staleBefore now locked t)
  behind : ∀ a ∈ staleProcessing limit staleBefore locked t, ∀ a' q,
    (reapStaleProcessingBatch limit staleBefore now locked t).find a.id = some a' →
    q ∈ (reapStaleProcessingBatch limit staleBefore now locked t).rows →
    q.status = .inqueued → (∀ b ∈ staleProcessing limit staleBefore locked t, b.id ≠ q.id) →
    q.queueSeq < a'.queueSeq

/-- Rows in the order of their numbers are claimed in this order. -/
theorem KeepsOrder.claimsOldestFirst {waited : Task → Timestamptz} {batch : List Task}
    {t : TaskTable} (h : KeepsOrder waited batch t) : ClaimsOldestFirst waited batch t := by
  intro taskTypes locked c hClaim b hb hId a ha hClaimable
  by_contra hOlder
  obtain ⟨a', ha', _⟩ := h.inqueued a ha
  have hc : t.find b.id = some c := by
    rw [hId]
    exact Table.mem_rows_iff.mp (claimCandidate_spec hClaim).1
  have hLt : a'.queueSeq < c.queueSeq := h.inOrder a ha b hb (not_le.mp hOlder) a' c ha' hc
  have hMem : a' ∈ t.rows := (Table.find_eq_some_iff.mp ha').1
  exact absurd (claimCandidate_le hClaim hMem (hClaimable a' ha')) (not_le.mpr hLt)

section Selected

variable {t : TaskTable} {limit : Nat} {staleBefore now : Timestamptz} {locked : UUID → Bool}

/-- The batch of a statement: the first rows with `p` in the order of a column. -/
def selectBatch (p : Task → Bool) (waited : Task → Timestamptz) (limit : Nat) (t : TaskTable) :
    List Task :=
  ((t.rows.filter p).insertionSort fun a b => waited a ≤ waited b).take limit

theorem selectBatch_nodup (p : Task → Bool) (waited : Task → Timestamptz) :
    ((selectBatch p waited limit t).map Task.id).Nodup := by
  have hPerm := List.perm_insertionSort (fun a b => waited a ≤ waited b) (t.rows.filter p)
  have hRows : ((t.rows.filter p).map Task.id).Nodup := (List.filter_sublist.map _).nodup t.nodup
  exact ((List.take_sublist limit _).map _).nodup ((hPerm.map Task.id).nodup_iff.mpr hRows)

theorem selectBatch_sorted (p : Task → Bool) (waited : Task → Timestamptz) :
    (selectBatch p waited limit t).Pairwise fun a b => waited a ≤ waited b :=
  have : Std.Total fun a b : Task => waited a ≤ waited b := ⟨fun _ _ => le_total _ _⟩
  have : IsTrans Task fun a b => waited a ≤ waited b := ⟨fun _ _ _ => le_trans⟩
  (List.pairwise_insertionSort (fun a b => waited a ≤ waited b) _).take

variable {batch : List Task} {f : Task → Task} {hf : ∀ r, (f r).id = r.id} {a q : Task}

theorem find_selected (ha : a ∈ batch) (hRow : a ∈ t.rows) :
    (t.update (fun r => batch.any fun b => r.id = b.id) f hf).find a.id = some (f a) := by
  have hAny : (batch.any fun b => a.id = b.id) = true :=
    List.any_eq_true.mpr ⟨a, ha, decide_eq_true rfl⟩
  rw [Table.find_update, Table.mem_rows_iff.mp hRow, Option.map_some, if_pos hAny]

theorem mem_of_not_selected
    (hq : q ∈ (t.update (fun r => batch.any fun b => r.id = b.id) f hf).rows)
    (hOther : ∀ b ∈ batch, b.id ≠ q.id) : q ∈ t.rows := by
  obtain ⟨r, hr, rfl⟩ := List.mem_map.mp hq
  by_cases hAny : (batch.any fun b => r.id = b.id) = true
  · simp only [hAny, if_true] at hOther
    obtain ⟨b, hb, hId⟩ := List.any_eq_true.mp hAny
    rw [hf] at hOther
    exact absurd (of_decide_eq_true hId).symm (hOther b hb)
  · simpa only [hAny, if_false, Bool.false_eq_true] using hr

/-- Rows whose numbers follow the order in which they were selected. -/
theorem keepsOrder_of_seq {waited : Task → Timestamptz} {t' : TaskTable} (seqOf : Task → Int)
    (hFind : ∀ a ∈ batch, ∃ a', t'.find a.id = some a' ∧ a'.status = .inqueued ∧
      a'.queueSeq = seqOf a)
    (hOrder : ∀ a ∈ batch, ∀ b ∈ batch, waited a < waited b → seqOf a < seqOf b)
    (hInj : ∀ a ∈ batch, ∀ b ∈ batch, seqOf a = seqOf b → a = b) : KeepsOrder waited batch t' := by
  have hSeq : ∀ a ∈ batch, ∀ a', t'.find a.id = some a' → a'.queueSeq = seqOf a := by
    intro a ha a' ha'
    obtain ⟨r, hr, _, hSeq⟩ := hFind a ha
    rw [hr] at ha'
    cases ha'
    exact hSeq
  constructor
  · intro a ha
    obtain ⟨a', ha', hStatus, _⟩ := hFind a ha
    exact ⟨a', ha', hStatus⟩
  · intro a ha b hb hLt a' b' ha' hb'
    rw [hSeq a ha a' ha', hSeq b hb b' hb']
    exact hOrder a ha b hb hLt
  · intro a ha b hb hNe a' b' ha' hb'
    rw [hSeq a ha a' ha', hSeq b hb b' hb']
    exact fun hSame => hNe (hInj a ha b hb hSame)

theorem find_reaped (ha : a ∈ staleProcessing limit staleBefore locked t) :
    (reapStaleProcessingBatch limit staleBefore now locked t).find a.id = some (a.setReaped
      (maxQueueSeq t + rowNumber (staleProcessing limit staleBefore locked t) a.id) now) := by
  unfold reapStaleProcessingBatch
  exact find_selected ha (staleProcessing_spec ha).1

theorem find_requeued (ha : a ∈ orphanedInqueued limit staleBefore locked t) :
    (requeueOrphanedInqueuedBatch limit staleBefore now locked t).find a.id = some (a.setRequeued
      (minQueueSeq t - rowNumber (orphanedInqueued limit staleBefore locked t) a.id) now) := by
  unfold requeueOrphanedInqueuedBatch
  exact find_selected ha (orphanedInqueued_spec ha).1

theorem staleProcessing_nodup :
    ((staleProcessing limit staleBefore locked t).map Task.id).Nodup :=
  selectBatch_nodup _ lastHeartbeat

theorem orphanedInqueued_nodup :
    ((orphanedInqueued limit staleBefore locked t).map Task.id).Nodup :=
  selectBatch_nodup _ Task.updatedAt

/-- `ReapStaleProcessingBatch` keeps the order of the heartbeats. -/
theorem reap_keeps_age : ReapKeepsAge limit staleBefore now locked t := by
  have hOrder : KeepsOrder lastHeartbeat (staleProcessing limit staleBefore locked t)
      (reapStaleProcessingBatch limit staleBefore now locked t) := by
    refine keepsOrder_of_seq (fun a => maxQueueSeq t +
      rowNumber (staleProcessing limit staleBefore locked t) a.id)
      (fun a ha => ⟨_, find_reaped ha, rfl, rfl⟩) ?_ ?_
    · intro a ha b hb hLt
      have hNumbers := rowNumber_lt_of_lt staleProcessing_nodup
        (selectBatch_sorted _ lastHeartbeat) ha hb hLt
      omega
    · intro a ha b hb hSame
      refine rowNumber_inj staleProcessing_nodup ha hb ?_
      omega
  refine ⟨hOrder, hOrder.claimsOldestFirst, ?_⟩
  intro a ha a' q ha' hq hStatus hOther
  rw [find_reaped ha] at ha'
  cases ha'
  have hRow : q ∈ t.rows := by
    unfold reapStaleProcessingBatch at hq
    exact mem_of_not_selected hq hOther
  have hLe := le_maxQueueSeq hRow hStatus
  have hPos := rowNumber_pos (staleProcessing limit staleBefore locked t) a.id
  show q.queueSeq < maxQueueSeq t + rowNumber _ a.id
  omega

/-- The numbers of a requeued batch run against the time that its rows have waited. -/
theorem requeued_seq_gt {b a' b' : Task} (ha : a ∈ orphanedInqueued limit staleBefore locked t)
    (hb : b ∈ orphanedInqueued limit staleBefore locked t) (hLt : a.updatedAt < b.updatedAt)
    (ha' : (requeueOrphanedInqueuedBatch limit staleBefore now locked t).find a.id = some a')
    (hb' : (requeueOrphanedInqueuedBatch limit staleBefore now locked t).find b.id = some b') :
    b'.queueSeq < a'.queueSeq := by
  rw [find_requeued ha] at ha'
  rw [find_requeued hb] at hb'
  cases ha'
  cases hb'
  have hNumbers := rowNumber_lt_of_lt orphanedInqueued_nodup
    (selectBatch_sorted _ Task.updatedAt) ha hb hLt
  show minQueueSeq t - rowNumber _ b.id < minQueueSeq t - rowNumber _ a.id
  omega

end Selected

/-- Both statements keep the order in which the tasks of their batches have waited if and only if
the requeued ones have waited equally long. -/
theorem keeps_age_iff (limit limit' : Nat) (staleBefore staleBefore' now now' : Timestamptz)
    (locked locked' : UUID → Bool) (t t' : TaskTable) :
    RequeueKeepsAge limit staleBefore now locked t ∧
        ReapKeepsAge limit' staleBefore' now' locked' t' ↔
      ∀ a ∈ orphanedInqueued limit staleBefore locked t,
        ∀ b ∈ orphanedInqueued limit staleBefore locked t, a.updatedAt = b.updatedAt := by
  constructor
  · intro ⟨hKeeps, _⟩
    have hNever : ∀ a ∈ orphanedInqueued limit staleBefore locked t,
        ∀ b ∈ orphanedInqueued limit staleBefore locked t, ¬a.updatedAt < b.updatedAt := by
      intro a ha b hb hLt
      have hOrder := hKeeps.keepsOrder.inOrder a ha b hb hLt _ _ (find_requeued ha)
        (find_requeued hb)
      exact absurd hOrder (requeued_seq_gt ha hb hLt (find_requeued ha) (find_requeued hb)).not_gt
    exact fun a ha b hb => le_antisymm (not_lt.mp (hNever b hb a ha)) (not_lt.mp (hNever a ha b hb))
  · intro hSame
    have hOrder : KeepsOrder Task.updatedAt (orphanedInqueued limit staleBefore locked t)
        (requeueOrphanedInqueuedBatch limit staleBefore now locked t) := by
      refine keepsOrder_of_seq (fun a => minQueueSeq t -
        rowNumber (orphanedInqueued limit staleBefore locked t) a.id)
        (fun a ha => ⟨_, find_requeued ha, (orphanedInqueued_spec ha).2, rfl⟩) ?_ ?_
      · intro a ha b hb hLt
        exact absurd (hSame a ha b hb) hLt.ne
      · intro a ha b hb hEq
        refine rowNumber_inj orphanedInqueued_nodup ha hb ?_
        omega
    refine ⟨⟨hOrder, hOrder.claimsOldestFirst, ?_⟩, reap_keeps_age⟩
    intro a ha a' q ha' hq hStatus hOther
    rw [find_requeued ha] at ha'
    cases ha'
    have hRow : q ∈ t.rows := by
      unfold requeueOrphanedInqueuedBatch at hq
      exact mem_of_not_selected hq hOther
    have hLe := minQueueSeq_le hRow hStatus
    have hPos := rowNumber_pos (orphanedInqueued limit staleBefore locked t) a.id
    show minQueueSeq t - rowNumber _ a.id < q.queueSeq
    omega

/-- Two tasks of a lesson that no worker has claimed, the second one a minute younger. -/
def twoOrphans : TaskTable where
  rows := [InsertTaskParams.row ⟨1, 10, none, "transcribe", none, 20⟩ 1 0,
    InsertTaskParams.row ⟨2, 11, none, "transcribe", none, 20⟩ 2 60000000]
  nodup := by decide

/-- The younger one is claimed first. -/
theorem twoOrphans_claimed_youngest_first :
    ¬(RequeueKeepsAge 10 300000000 400000000 (fun _ => false) twoOrphans ∧
        ReapKeepsAge 10 300000000 400000000 (fun _ => false) twoOrphans) ∧
      ((claimNextInqueuedTask 7 ["transcribe"] 400000001 (fun _ => false)
        (requeueOrphanedInqueuedBatch 10 300000000 400000000 (fun _ => false)
          twoOrphans)).2.map Task.id) = some 2 := by
  refine ⟨fun ⟨hKeeps, _⟩ => ?_, by decide⟩
  have hOrder := hKeeps.keepsOrder.inOrder _ (by decide : InsertTaskParams.row
      ⟨1, 10, none, "transcribe", none, 20⟩ 1 0 ∈ _) _ (by decide : InsertTaskParams.row
      ⟨2, 11, none, "transcribe", none, 20⟩ 2 60000000 ∈ _) (by decide) _ _
    (find_requeued (by decide)) (find_requeued (by decide))
  revert hOrder
  decide

end Richter.TaskQueue
