import Mathlib.Data.List.Sort
import Richter.Lessons.Transcript
import Richter.Lib.ForeignKey
import Richter.Svc.Errors

/-! The transcript chunks of lessons and their interactions, with the statements on them
(`sql/queries/lesson_transcript_chunks.sql`, `sql/queries/lesson_interactions.sql`) and the two
transactions of the executors: the one of `RunChunk` and `saveInteractionsForChunk`. -/

namespace Richter.Lessons

open Lib

/-- A row of `lesson_transcript_chunks`. -/
structure LessonTranscriptChunk where
  id : UUID
  lessonId : UUID
  orderIndex : Nat
  startSeconds : ℚ
  endSeconds : ℚ
  summary : String
  questionCountConfig : Nat
  deriving DecidableEq

/-- A row of `lesson_interactions`. -/
structure LessonInteraction where
  id : UUID
  lessonId : UUID
  chunkId : Option UUID
  kind : String
  startSeconds : ℚ
  orderIndex : Nat
  prompt : String
  explanation : String
  config : String
  maxScore : ℚ
  generatedBy : String
  deriving DecidableEq

structure ChunkProposal where
  startSeconds : ℚ
  endSeconds : ℚ
  summary : String
  deriving DecidableEq

structure GeneratedItem where
  kindStr : String
  startSecs : ℚ
  prompt : String
  explanation : String
  configJSON : String
  deriving DecidableEq

/-- The reference of an interaction to its chunk is `ON DELETE SET NULL`. -/
abbrev Content := ForeignKey LessonTranscriptChunk LessonTranscriptChunk.id LessonInteraction
  LessonInteraction.id LessonInteraction.chunkId

/-- What `ListLessonTranscriptChunks` returns: chunks with different ids. -/
abbrev ChunkList := { cs : List LessonTranscriptChunk // (cs.map LessonTranscriptChunk.id).Nodup }

namespace LessonInteraction

def clearChunk (r : LessonInteraction) : LessonInteraction := { r with chunkId := none }

@[simp] theorem clearChunk_id (r : LessonInteraction) : r.clearChunk.id = r.id := rfl

@[simp] theorem clearChunk_chunkId (r : LessonInteraction) : r.clearChunk.chunkId = none := rfl

end LessonInteraction

/-- `ListLessonTranscriptChunks`, from the first row. -/
def listLessonTranscriptChunks (lessonId : UUID) (limit : Nat) (c : Content) : ChunkList where
  val := ((c.parents.rows.filter fun r => r.lessonId = lessonId).insertionSort
    fun a b => a.orderIndex ≤ b.orderIndex).take limit
  property := by
    have hFilter : ((c.parents.rows.filter fun r => r.lessonId = lessonId).map
        LessonTranscriptChunk.id).Nodup := (List.filter_sublist.map _).nodup c.parents.nodup
    have hSort : (((c.parents.rows.filter fun r => r.lessonId = lessonId).insertionSort
        fun a b => a.orderIndex ≤ b.orderIndex).map LessonTranscriptChunk.id).Nodup :=
      ((List.perm_insertionSort _ _).map _).nodup_iff.mpr hFilter
    exact ((List.take_sublist _ _).map _).nodup hSort

/-- `ListLessonInteractions`, from the first row. -/
def listLessonInteractions (lessonId : UUID) (limit : Nat) (c : Content) :
    List LessonInteraction :=
  ((c.children.rows.filter fun r => r.lessonId = lessonId).insertionSort
    fun a b => a.orderIndex < b.orderIndex ∨ (a.orderIndex = b.orderIndex ∧ a.id ≤ b.id)).take limit

/-- `DeleteLessonInteractionsByLesson`. -/
def deleteLessonInteractionsByLesson (lessonId : UUID) (c : Content) : Content :=
  c.deleteChildren fun r => r.lessonId = lessonId

/-- `DeleteLessonInteractionsByChunk`, for each of the chunks. -/
def deleteLessonInteractionsByChunk (chunkIds : List UUID) (c : Content) : Content :=
  c.deleteChildren fun r => r.chunkId.any chunkIds.contains

/-- `DeleteLessonTranscriptChunks`. -/
def deleteLessonTranscriptChunks (lessonId : UUID) (c : Content) : Content :=
  c.deleteParents (fun q => q.lessonId = lessonId) LessonInteraction.clearChunk
    LessonInteraction.clearChunk_id LessonInteraction.clearChunk_chunkId

/-- What the first failing `INSERT` of a list answers: a row that should be referred to is missing,
or the new id is taken. -/
def insertError (referred : Bool) : DbError := .pg (if referred then "23505" else "23503")

/-- `InsertLessonTranscriptChunk` for the proposals in their order, with the given new ids. -/
def newChunks (lessonId : UUID) (newId : Nat → UUID) (chunks : List ChunkProposal) :
    List LessonTranscriptChunk :=
  chunks.mapIdx fun i ch =>
    { id := newId i
      lessonId := lessonId
      orderIndex := i
      startSeconds := ch.startSeconds
      endSeconds := ch.endSeconds
      summary := ch.summary
      questionCountConfig := 1 }

/-- The ids of the chunks that are replaced, as far as they were listed, and the new chunks. -/
structure SavedChunks where
  staleChunkIDs : List UUID
  chunks : List LessonTranscriptChunk
  deriving DecidableEq

/-- The transaction of `RunChunk`; `lesson` tells whether the lesson exists. -/
def saveChunks (lesson : Bool) (lessonId : UUID) (limit : Nat) (chunks : List ChunkProposal)
    (newId : Nat → UUID) (c : Content) : Except DbError (SavedChunks × Content) :=
  let existing := (listLessonTranscriptChunks lessonId limit c).val.map LessonTranscriptChunk.id
  let cleared := deleteLessonTranscriptChunks lessonId (deleteLessonInteractionsByChunk existing c)
  let rows := newChunks lessonId newId chunks
  match if lesson then cleared.insertParents rows else none with
  | none => .error (insertError lesson)
  | some c' => .ok (⟨existing, rows⟩, c')

/-- `GetLessonInteractionNextOrderIndex`. -/
def getLessonInteractionNextOrderIndex (lessonId : UUID) (c : Content) : Nat :=
  (((c.children.rows.filter fun r => r.lessonId = lessonId).map
    fun r => r.orderIndex + 1).max?).getD 0

/-- The rows that `insertInteractionsInTx` inserts. -/
def newInteractions (lessonId chunkId : UUID) (nextIdx : Nat) (newId : Nat → UUID)
    (items : List GeneratedItem) : List LessonInteraction :=
  items.mapIdx fun i item =>
    { id := newId i
      lessonId := lessonId
      chunkId := some chunkId
      kind := item.kindStr
      startSeconds := item.startSecs
      orderIndex := nextIdx + i
      prompt := item.prompt
      explanation := item.explanation
      config := item.configJSON
      maxScore := 1
      generatedBy := "ai" }

/-- `saveInteractionsForChunk`. -/
def saveInteractionsForChunk (lessonId chunkId : UUID) (items : List GeneratedItem) (force : Bool)
    (newId : Nat → UUID) (c : Content) : Except DbError (List LessonInteraction × Content) :=
  let cleared := if force then deleteLessonInteractionsByChunk [chunkId] c else c
  let rows := newInteractions lessonId chunkId (getLessonInteractionNextOrderIndex lessonId cleared)
    newId items
  match cleared.insertChildren rows with
  | none => .error (insertError (c.parents.find chunkId).isSome)
  | some c' => .ok (rows, c')

/-- The rows of a chunk, in the order in which they were stored. -/
def interactionsOf (chunkId : UUID) (c : Content) : List LessonInteraction :=
  c.children.rows.filter fun r => r.chunkId = some chunkId

/-- The chunks of a lesson. -/
def chunksOf (lessonId : UUID) (c : Content) : List LessonTranscriptChunk :=
  c.parents.rows.filter fun q => q.lessonId = lessonId

/-- The interactions of the chunks of a lesson. -/
def rowsOf (lessonId : UUID) (c : Content) : List LessonInteraction :=
  c.children.rows.filter (c.refersTo fun q => q.lessonId = lessonId)

section Specs

variable {lessonId chunkId : UUID} {newId : Nat → UUID} {c c' : Content}

theorem mem_rowsOf {r : LessonInteraction} :
    r ∈ rowsOf lessonId c ↔
      r ∈ c.children.rows ∧ ∃ q ∈ chunksOf lessonId c, r.chunkId = some q.id := by
  unfold rowsOf chunksOf
  rw [List.mem_filter, ForeignKey.refersTo_iff]
  simp [and_assoc]

/-- The interactions of a chunk of the lesson. -/
theorem interactionsOf_eq {q : LessonTranscriptChunk} (hq : q ∈ chunksOf lessonId c) :
    interactionsOf q.id c = (rowsOf lessonId c).filter fun r => r.chunkId = some q.id := by
  obtain ⟨hMem, hLesson⟩ := List.mem_filter.mp hq
  unfold interactionsOf rowsOf
  rw [List.filter_filter]
  refine List.filter_congr fun r _ => ?_
  by_cases hChunk : r.chunkId = some q.id
  · have hRefers : c.refersTo (fun q => q.lessonId = lessonId) r = true :=
      ForeignKey.refersTo_iff.mpr ⟨q, hMem, hLesson, hChunk⟩
    simp [hChunk, hRefers]
  · simp [hChunk]

theorem saveInteractionsForChunk_spec {items : List GeneratedItem} {force : Bool}
    {rows : List LessonInteraction}
    (h : saveInteractionsForChunk lessonId chunkId items force newId c = .ok (rows, c')) :
    c'.parents = c.parents ∧
      c'.children.rows = (if force then c.children.rows.filter fun r => r.chunkId ≠ some chunkId
        else c.children.rows) ++ rows ∧
      rows.length = items.length ∧
      ∀ r ∈ rows, r.chunkId = some chunkId ∧ r.lessonId = lessonId := by
  unfold saveInteractionsForChunk at h
  dsimp only at h
  split at h
  · cases h
  · next c₁ hInsert =>
    cases h
    obtain ⟨hChildren, hParents⟩ := ForeignKey.insertChildren_spec hInsert
    refine ⟨hParents.trans ?_, hChildren.trans ?_, by simp [newInteractions], fun r hr => ?_⟩
    · cases force <;> rfl
    · cases force with
      | false => rfl
      | true =>
        refine congrArg (· ++ _) (List.filter_congr fun r _ => ?_)
        show (!r.chunkId.any [chunkId].contains) = decide (r.chunkId ≠ some chunkId)
        cases r.chunkId <;> simp
    · obtain ⟨i, hi, rfl⟩ := List.mem_mapIdx.mp hr
      exact ⟨rfl, rfl⟩

/-- The new chunks have no interactions. -/
theorem rowsOf_saveChunks {lesson : Bool} {limit : Nat} {chunks : List ChunkProposal}
    {saved : SavedChunks} (h : saveChunks lesson lessonId limit chunks newId c = .ok (saved, c')) :
    rowsOf lessonId c' = [] := by
  unfold saveChunks at h
  dsimp only at h
  split at h
  · cases h
  · next c₁ hInsert =>
    cases h
    split at hInsert
    · rw [List.eq_nil_iff_forall_not_mem]
      intro r hr
      obtain ⟨hMem, q, hq, hChunk⟩ := mem_rowsOf.mp hr
      obtain ⟨hq, hLesson⟩ := List.mem_filter.mp hq
      obtain ⟨hParents, _, _⟩ := ForeignKey.insertParents_spec hInsert
      rw [hParents] at hq
      rcases List.mem_append.mp hq with hOld | hNew
      · have hDeleted := (List.mem_filter.mp hOld).2
        exact absurd hLesson (by simpa using hDeleted)
      · exact ForeignKey.not_refers_of_insertParents hInsert hNew hMem hChunk
    · cases hInsert

end Specs

end Richter.Lessons
