import Richter.Lessons.Store
import Richter.Lib.Txn

/-! What the requests that edit the chunks of a lesson do to the stores: reads on connections of
their own, records of FoundationDB, and transactions whose statements run one by one. -/

namespace Richter.Chunkops

open Lib
open Lessons (ChunkList Content Env LessonInteraction LessonTranscriptChunk)

/-- `UPDATE .. SET start_seconds, end_seconds, summary`. -/
def setMetadata (startSeconds endSeconds : ℚ) (summary : String) (c : LessonTranscriptChunk) :
    LessonTranscriptChunk :=
  { c with startSeconds := startSeconds, endSeconds := endSeconds, summary := summary }

@[simp] theorem setMetadata_id (startSeconds endSeconds : ℚ) (summary : String)
    (c : LessonTranscriptChunk) : (setMetadata startSeconds endSeconds summary c).id = c.id := rfl

def setOrderIndex (orderIndex : Nat) (c : LessonTranscriptChunk) : LessonTranscriptChunk :=
  { c with orderIndex := orderIndex }

@[simp] theorem setOrderIndex_id (orderIndex : Nat) (c : LessonTranscriptChunk) :
    (setOrderIndex orderIndex c).id = c.id := rfl

/-- What a statement writes.  `setOrderIndex` is one row of `ReorderLessonChunks`. -/
inductive Write
  | updateChunkMetadata (id : UUID) (startSeconds endSeconds : ℚ) (summary : String)
  | insertLessonTranscriptChunk (row : LessonTranscriptChunk)
  | deleteLessonTranscriptChunk (id : UUID)
  | deleteLessonInteractionsByChunk (chunkId : UUID)
  | setOrderIndex (id : UUID) (orderIndex : Nat)
  deriving DecidableEq

def Write.applyContent (c : Content) : Write → Content
  | .updateChunkMetadata id startSeconds endSeconds summary =>
      c.updateParents (fun q => q.id = id) (setMetadata startSeconds endSeconds summary)
        (setMetadata_id startSeconds endSeconds summary)
  | .insertLessonTranscriptChunk row => (c.insertParents [row]).getD c
  | .deleteLessonTranscriptChunk id =>
      c.deleteParents (fun q => q.id = id) LessonInteraction.clearChunk
        LessonInteraction.clearChunk_id LessonInteraction.clearChunk_chunkId
  | .deleteLessonInteractionsByChunk chunkId =>
      Lessons.deleteLessonInteractionsByChunk [chunkId] c
  | .setOrderIndex id orderIndex =>
      c.updateParents (fun q => q.id = id) (Chunkops.setOrderIndex orderIndex)
        (setOrderIndex_id orderIndex)

def Write.apply (w : Write) (s : Lessons.Store) : Lessons.Store :=
  { s with content := w.applyContent s.content }

/-- The rows that can be locked. -/
inductive RowKey
  | chunk (id : UUID)
  | interaction (id : UUID)
  deriving DecidableEq, Repr

def interactionKeys (chunkId : UUID) (c : Content) : List RowKey :=
  (Lessons.interactionsOf chunkId c).map fun r => .interaction r.id

/-- The rows that a statement writes. -/
def Write.rows (c : Content) : Write → List RowKey
  | .updateChunkMetadata id .. | .setOrderIndex id _ => [.chunk id]
  | .insertLessonTranscriptChunk row => [.chunk row.id]
  | .deleteLessonTranscriptChunk id => .chunk id :: interactionKeys id c
  | .deleteLessonInteractionsByChunk chunkId => interactionKeys chunkId c

/-- The parameters of `InsertLessonTranscriptChunk`. -/
structure InsertChunkParams where
  lessonId : UUID
  orderIndex : Nat
  startSeconds : ℚ
  endSeconds : ℚ
  summary : String
  questionCountConfig : Nat
  deriving DecidableEq

def InsertChunkParams.row (p : InsertChunkParams) (id : UUID) : LessonTranscriptChunk where
  id := id
  lessonId := p.lessonId
  orderIndex := p.orderIndex
  startSeconds := p.startSeconds
  endSeconds := p.endSeconds
  summary := p.summary
  questionCountConfig := p.questionCountConfig

/-- The statements of the transactions.  `ReorderLessonChunks` is `rankLessonChunks`, its
subquery, and then `setOrderIndex` for each row. -/
inductive Query
  | getLessonTranscriptChunk (id : UUID)
  | listLessonTranscriptChunks (lessonId : UUID) (limit : Nat)
  | updateChunkMetadata (id : UUID) (startSeconds endSeconds : ℚ) (summary : String)
  | insertLessonTranscriptChunk (p : InsertChunkParams)
  | deleteLessonTranscriptChunk (id : UUID)
  | deleteLessonInteractionsByChunk (chunkId : UUID)
  | rankLessonChunks (lessonId : UUID)
  | setOrderIndex (id : UUID) (orderIndex : Nat)
  deriving DecidableEq

abbrev Query.Result : Query → Type
  | .getLessonTranscriptChunk _ | .updateChunkMetadata .. | .insertLessonTranscriptChunk _ =>
      LessonTranscriptChunk
  | .listLessonTranscriptChunks .. => ChunkList
  | .rankLessonChunks _ => List UUID
  | _ => Unit

/-- The write of a statement, if it is none that reads. -/
def Query.write (env : Env) : Query → Option Write
  | .getLessonTranscriptChunk _ | .listLessonTranscriptChunks .. | .rankLessonChunks _ => none
  | .updateChunkMetadata id startSeconds endSeconds summary =>
      some (.updateChunkMetadata id startSeconds endSeconds summary)
  | .insertLessonTranscriptChunk p => some (.insertLessonTranscriptChunk (p.row (env.newId 0)))
  | .deleteLessonTranscriptChunk id => some (.deleteLessonTranscriptChunk id)
  | .deleteLessonInteractionsByChunk chunkId => some (.deleteLessonInteractionsByChunk chunkId)
  | .setOrderIndex id orderIndex => some (.setOrderIndex id orderIndex)

/-- The chunks of a lesson in the order of their starts. -/
def byStart (lessonId : UUID) (c : Content) : List LessonTranscriptChunk :=
  (Lessons.chunksOf lessonId c).insertionSort fun a b => a.startSeconds ≤ b.startSeconds

/-- What a statement answers. -/
def Query.answer (env : Env) (s : Lessons.Store) : (q : Query) → Except DbError q.Result
  | .getLessonTranscriptChunk id => one (s.content.parents.find id)
  | .listLessonTranscriptChunks lessonId limit =>
      .ok (Lessons.listLessonTranscriptChunks lessonId limit s.content)
  | .updateChunkMetadata id startSeconds endSeconds summary =>
      one ((s.content.parents.find id).map (setMetadata startSeconds endSeconds summary))
  | .insertLessonTranscriptChunk p =>
      if (s.lessons.find p.lessonId).isNone then .error (.pg "23503")
      else if (s.content.parents.find (env.newId 0)).isSome then .error (.pg "23505")
      else .ok (p.row (env.newId 0))
  | .rankLessonChunks lessonId => .ok ((byStart lessonId s.content).map (·.id))
  | .deleteLessonTranscriptChunk _ | .deleteLessonInteractionsByChunk _ | .setOrderIndex .. =>
      .ok ()

/-- What a request performs: a read or an access to FoundationDB outside of a transaction, one whose
error is looked at, or a step of a transaction. -/
inductive Op
  | base (o : Lessons.Op)
  | checked (o : Lessons.Op)
  | begin
  | tx (q : Query)
  | commit
  | rollback
  deriving DecidableEq

abbrev Op.Resp : Op → Type
  | .base o => o.Resp
  | .checked o => Except String o.Resp
  | .tx q => Except DbError q.Result
  | .begin | .commit => Except DbError Unit
  | .rollback => Unit

/-- The requests are named by numbers. -/
abbrev Store := TxnStore Nat RowKey Write Lessons.Store

/-- The operation `o` of request `i`; a write waits (`none`) while another transaction has locked
its rows. -/
def exec (i : Nat) (env : Env) (o : Op) (s : Store) : Option (o.Resp × Store) :=
  match o, env.failure with
  | .base o, _ =>
      (Lessons.exec i env o s.committed).map fun (r, c) => (r, { s with committed := c })
  | .checked o, failure =>
      if env.kvFails then some (.error ((failure.map DbError.text).getD ""), s)
      else (Lessons.exec i env o s.committed).map fun (r, c) => (.ok r, { s with committed := c })
  | .begin, some e | .tx _, some e => some (.error e, s)
  | .commit, some e => some (.error e, s.rollback i)
  | .rollback, _ => some ((), s.rollback i)
  | .begin, none => some (.ok (), s.begin i)
  | .commit, none => some (.ok (), s.commit Write.apply i)
  | .tx q, none =>
      let view := s.view Write.apply i
      match q.answer env view with
      | .error e => some (.error e, s)
      | .ok a =>
          match q.write env with
          | none => some (.ok a, s)
          | some w =>
              if s.free i (w.rows view.content) then
                some (.ok a, s.write i (w.rows view.content) w)
              else none

/-- What a statement of a transaction that does not fail does. -/
theorem exec_tx {i : Nat} {env : Env} {q : Query} {s s' : Store} {r : Except DbError q.Result}
    (h : exec i env (.tx q) s = some (r, s')) :
    (∃ e, r = .error e ∧ s' = s) ∨ ∃ a, r = .ok a ∧
      q.answer env (s.view Write.apply i) = .ok a ∧ s'.committed = s.committed ∧
      s'.pending = (q.write env).elim s.pending fun w =>
        Function.update s.pending i (some ((s.pending i).getD [] ++ [w])) := by
  cases hFailure : env.failure with
  | some e =>
    simp only [exec, hFailure, Option.some.injEq, Prod.mk.injEq] at h
    exact .inl ⟨e, h.1.symm, h.2.symm⟩
  | none =>
    simp only [exec, hFailure] at h
    split at h
    · cases h
      exact .inl ⟨_, rfl, rfl⟩
    · next a hAnswer =>
      split at h
      · next hWrite =>
        cases h
        exact .inr ⟨a, rfl, hAnswer, rfl, by rw [hWrite]; rfl⟩
      · next w hWrite =>
        split at h
        · cases h
          exact .inr ⟨a, rfl, hAnswer, rfl, by rw [hWrite]; rfl⟩
        · cases h

end Richter.Chunkops
