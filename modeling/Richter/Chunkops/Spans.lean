import Mathlib.Algebra.Order.Ring.Rat
import Richter.Chunkops.Db
import Richter.Lib.Timeline

/-! The timeline of a lesson's chunks, and what the statements of the transactions do to it. -/

namespace Richter.Chunkops

open Lib
open Lessons (Content Env LessonTranscriptChunk chunksOf)

/-- Every chunk of the lesson has a start before its end, and no two of them overlap. -/
structure ValidTimeline (lessonId : UUID) (c : Content) : Prop where
  proper : ∀ q ∈ chunksOf lessonId c, q.startSeconds < q.endSeconds
  apart : ∀ q ∈ chunksOf lessonId c, ∀ q' ∈ chunksOf lessonId c, q.id ≠ q'.id →
    q.endSeconds ≤ q'.startSeconds ∨ q'.endSeconds ≤ q.startSeconds

instance (lessonId : UUID) (c : Content) : Decidable (ValidTimeline lessonId c) :=
  decidable_of_iff ((∀ q ∈ chunksOf lessonId c, q.startSeconds < q.endSeconds) ∧
    ∀ q ∈ chunksOf lessonId c, ∀ q' ∈ chunksOf lessonId c, q.id ≠ q'.id →
      q.endSeconds ≤ q'.startSeconds ∨ q'.endSeconds ≤ q.startSeconds)
    ⟨fun h => ⟨h.1, h.2⟩, fun h => ⟨h.proper, h.apart⟩⟩

/-- The bounds of the lesson's chunks under their ids. -/
def spansOf (lessonId : UUID) (c : Content) : Spans UUID ℚ := fun id =>
  ((c.parents.find id).filter fun q => q.lessonId = lessonId).map fun q =>
    (q.startSeconds, q.endSeconds)

section Spans

variable {lessonId : UUID} {c c' : Content}

theorem spansOf_eq_some {id : UUID} {a b : ℚ} : spansOf lessonId c id = some (a, b) ↔
    ∃ q ∈ chunksOf lessonId c, q.id = id ∧ q.startSeconds = a ∧ q.endSeconds = b := by
  unfold spansOf chunksOf
  constructor
  · intro h
    obtain ⟨q, hq, hBounds⟩ := Option.map_eq_some_iff.mp h
    obtain ⟨hFind, hLesson⟩ := Option.filter_eq_some_iff.mp hq
    obtain ⟨hMem, hId⟩ := Table.find_eq_some_iff.mp hFind
    cases hBounds
    exact ⟨q, List.mem_filter.mpr ⟨hMem, hLesson⟩, hId, rfl, rfl⟩
  · rintro ⟨q, hq, rfl, rfl, rfl⟩
    obtain ⟨hMem, hLesson⟩ := List.mem_filter.mp hq
    rw [Table.mem_rows_iff.mp hMem, Option.filter_some, if_pos hLesson]
    rfl

theorem validTimeline_iff : ValidTimeline lessonId c ↔ (spansOf lessonId c).Timeline := by
  constructor
  · rintro ⟨hProper, hApart⟩
    constructor
    · intro id a b h
      obtain ⟨q, hq, rfl, rfl, rfl⟩ := spansOf_eq_some.mp h
      exact hProper q hq
    · intro i j a b a' b' hij hi hj
      obtain ⟨q, hq, rfl, rfl, rfl⟩ := spansOf_eq_some.mp hi
      obtain ⟨q', hq', rfl, rfl, rfl⟩ := spansOf_eq_some.mp hj
      exact hApart q hq q' hq' hij
  · rintro ⟨hProper, hApart⟩
    constructor
    · intro q hq
      exact hProper q.id _ _ (spansOf_eq_some.mpr ⟨q, hq, rfl, rfl, rfl⟩)
    · intro q hq q' hq' hNe
      exact hApart q.id q'.id _ _ _ _ hNe (spansOf_eq_some.mpr ⟨q, hq, rfl, rfl, rfl⟩)
        (spansOf_eq_some.mpr ⟨q', hq', rfl, rfl, rfl⟩)

/-- The lesson of a chunk. -/
def lessonAt (c : Content) (id : UUID) : Option UUID := (c.parents.find id).map (·.lessonId)

theorem spansOf_of_lessonAt_ne {id : UUID} (h : lessonAt c id ≠ some lessonId) :
    spansOf lessonId c id = none := by
  unfold lessonAt at h
  unfold spansOf
  cases hq : c.parents.find id with
  | none => rfl
  | some q =>
    have hLesson : q.lessonId ≠ lessonId := by simpa [hq] using h
    simp [Option.filter, hLesson]

theorem find_updateChunkMetadata (id k : UUID) (a b : ℚ) (summary : String) :
    ((Write.updateChunkMetadata id a b summary).applyContent c).parents.find k =
      (c.parents.find k).map fun q => if q.id = id then setMetadata a b summary q else q := by
  simp [Write.applyContent, ForeignKey.updateParents]

theorem find_setOrderIndex (id k : UUID) (orderIndex : Nat) :
    ((Write.setOrderIndex id orderIndex).applyContent c).parents.find k =
      (c.parents.find k).map fun q => if q.id = id then setOrderIndex orderIndex q else q := by
  simp [Write.applyContent, ForeignKey.updateParents]

/-- An insert of one row adds it, unless its id is taken. -/
theorem find_insertLessonTranscriptChunk (row : LessonTranscriptChunk) (k : UUID) :
    ((Write.insertLessonTranscriptChunk row).applyContent c).parents.find k =
      if k = row.id then some ((c.parents.find k).getD row) else c.parents.find k := by
  show ((c.insertParents [row]).getD c).parents.find k = _
  unfold ForeignKey.insertParents
  split
  · next hTaken =>
    obtain ⟨q, hq, hId⟩ := List.mem_map.mp hTaken
    by_cases hk : k = row.id
    · have hFind : c.parents.find k = some q := Table.find_eq_some_iff.mpr ⟨hq, hId.trans hk.symm⟩
      rw [if_pos hk]
      simp [hFind]
    · rw [if_neg hk]
      rfl
  · next hFree =>
    have hFind := Table.find_append row hFree k
    by_cases hk : k = row.id
    · have hNone : c.parents.find k = none := Table.find_eq_none_iff.mpr (hk ▸ hFree)
      rw [if_pos hk] at hFind
      rw [if_pos hk, hNone]
      exact hFind
    · rw [if_neg hk] at hFind
      rw [if_neg hk]
      exact hFind

variable (lessonId) in
/-- New bounds go under the chunk's id, if it is one of the lesson's. -/
theorem spansOf_updateChunkMetadata (id : UUID) (a b : ℚ) (summary : String) :
    spansOf lessonId ((Write.updateChunkMetadata id a b summary).applyContent c) =
      if lessonAt c id = some lessonId then (spansOf lessonId c).set id (some (a, b))
      else spansOf lessonId c := by
  funext k
  unfold spansOf lessonAt
  rw [find_updateChunkMetadata]
  by_cases hk : k = id
  · subst hk
    cases hq : c.parents.find k with
    | none => simp [hq]
    | some q =>
      have hId : q.id = k := Table.find_key hq
      by_cases hLesson : q.lessonId = lessonId
      · simp [hId, hLesson, setMetadata]
      · simp [hq, hId, hLesson, setMetadata, Option.filter]
  · have hSame : ((c.parents.find k).map fun q => if q.id = id then setMetadata a b summary q
        else q) = c.parents.find k := by
      cases hq : c.parents.find k with
      | none => rfl
      | some q => simp [Table.find_key hq, hk]
    rw [hSame]
    split
    · rw [Spans.set_of_ne _ _ hk]
    · rfl

variable (lessonId) in
theorem spansOf_setOrderIndex (id : UUID) (orderIndex : Nat) :
    spansOf lessonId ((Write.setOrderIndex id orderIndex).applyContent c) = spansOf lessonId c := by
  funext k
  unfold spansOf
  rw [find_setOrderIndex]
  cases hq : c.parents.find k with
  | none => rfl
  | some q =>
    by_cases hId : q.id = id <;> by_cases hLesson : q.lessonId = lessonId <;>
      simp [hId, hLesson, setOrderIndex, Option.filter]

variable (lessonId) in
theorem spansOf_insertLessonTranscriptChunk (row : LessonTranscriptChunk) :
    spansOf lessonId ((Write.insertLessonTranscriptChunk row).applyContent c) =
      if row.lessonId = lessonId ∧ c.parents.find row.id = none then
        (spansOf lessonId c).set row.id (some (row.startSeconds, row.endSeconds))
      else spansOf lessonId c := by
  funext k
  unfold spansOf
  rw [find_insertLessonTranscriptChunk]
  by_cases hk : k = row.id
  · subst hk
    cases hq : c.parents.find row.id with
    | none => by_cases hLesson : row.lessonId = lessonId <;> simp [hq, hLesson, Option.filter]
    | some q => simp [hq]
  · rw [if_neg hk]
    split
    · rw [Spans.set_of_ne _ _ hk]
    · rfl

/-- No write of a `Split` or an `AdjustBoundary` takes a chunk from its lesson. -/
theorem lessonAt_updateChunkMetadata (id k : UUID) (a b : ℚ) (summary : String) :
    lessonAt ((Write.updateChunkMetadata id a b summary).applyContent c) k = lessonAt c k := by
  unfold lessonAt
  rw [find_updateChunkMetadata]
  cases c.parents.find k with
  | none => rfl
  | some q => by_cases hId : q.id = id <;> simp [hId, setMetadata]

theorem lessonAt_setOrderIndex (id k : UUID) (orderIndex : Nat) :
    lessonAt ((Write.setOrderIndex id orderIndex).applyContent c) k = lessonAt c k := by
  unfold lessonAt
  rw [find_setOrderIndex]
  cases c.parents.find k with
  | none => rfl
  | some q => by_cases hId : q.id = id <;> simp [hId, setOrderIndex]

theorem lessonAt_insertLessonTranscriptChunk {row : LessonTranscriptChunk} {k lesson : UUID}
    (h : lessonAt c k = some lesson) :
    lessonAt ((Write.insertLessonTranscriptChunk row).applyContent c) k = some lesson := by
  unfold lessonAt at h ⊢
  obtain ⟨q, hq, hLesson⟩ := Option.map_eq_some_iff.mp h
  rw [find_insertLessonTranscriptChunk]
  by_cases hk : k = row.id
  · rw [if_pos hk, hq]
    exact congrArg some hLesson
  · rw [if_neg hk, hq]
    exact congrArg some hLesson

end Spans

/-- A lesson with the given chunks and segments, and nothing else. -/
def lectureWith (chunks : Table LessonTranscriptChunk LessonTranscriptChunk.id)
    (segs : List Lessons.Segment) (text : UUID → Option String) : Lessons.Store where
  lessons := .ofList [⟨10, some "lessons/10/video.mp4", none, "vi", "vi"⟩]
  tasks := .empty
  content := ⟨chunks, .empty, nofun⟩
  attempts := []
  analyses := []
  transcripts := fun _ => none
  segments := fun _ => some segs
  chunkTranscripts := text
  analysisLocks := fun _ _ => false
  lessonLock := fun _ => none
  txAborted := fun _ => false
  cancelled := fun _ => false
  claimant := fun _ => none
  batches := []

/-- Two chunks without a gap. -/
def twoChunks : Lessons.Store :=
  lectureWith (.ofList [⟨30, 10, 0, 0, 10, "intro", 1⟩, ⟨31, 10, 1, 10, 20, "proof", 1⟩]) []
    fun _ => none

/-- Nothing fails, and the next new chunk gets the id 32. -/
def calm : Env := { newId := fun _ => 32 }

end Richter.Chunkops
