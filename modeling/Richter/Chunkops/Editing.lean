import Richter.Chunkops.Requests
import Richter.Chunkops.Spans

/-! Requests of the chunk editor one after another: the timeline stays valid, the chunks stay
numbered in the order of their starts, and each request covers what it should. -/

namespace Richter.Chunkops

open Lib
open Lessons (Content Env LessonTranscriptChunk Segment buildChunkTranscript chunksOf trimSpace)

/-- The chunks of the lesson are numbered from zero on, in the order of their starts. -/
structure InOrder (lessonId : UUID) (c : Content) : Prop where
  indices : ((chunksOf lessonId c).map (·.orderIndex)).Perm
    (List.range (chunksOf lessonId c).length)
  increasing : ∀ q ∈ chunksOf lessonId c, ∀ q' ∈ chunksOf lessonId c,
    q.startSeconds < q'.startSeconds → q.orderIndex < q'.orderIndex

section Writes

variable {lessonId : UUID} {c c' : Content}

theorem nodup_chunksOf (lessonId : UUID) (c : Content) : ((chunksOf lessonId c).map (·.id)).Nodup :=
  (List.filter_sublist.map _).nodup c.parents.nodup

theorem mem_chunksOf {q : LessonTranscriptChunk} :
    q ∈ chunksOf lessonId c ↔ c.parents.find q.id = some q ∧ q.lessonId = lessonId := by
  unfold chunksOf
  rw [List.mem_filter, Table.mem_rows_iff]
  simp

theorem find_of_mem_chunksOf {q : LessonTranscriptChunk} (h : q ∈ chunksOf lessonId c) :
    c.parents.find q.id = some q := (mem_chunksOf.mp h).1

/-- Two chunks with one id. -/
theorem eq_of_id {q q' : LessonTranscriptChunk} (h : q ∈ chunksOf lessonId c)
    (h' : q' ∈ chunksOf lessonId c) (hId : q.id = q'.id) : q = q' :=
  List.inj_on_of_nodup_map (nodup_chunksOf lessonId c) h h' hId

/-- A change of the rows that keeps their lessons. -/
theorem chunksOf_map {f : LessonTranscriptChunk → LessonTranscriptChunk}
    (hRows : c'.parents.rows = c.parents.rows.map f) (hf : ∀ q, (f q).lessonId = q.lessonId) :
    chunksOf lessonId c' = (chunksOf lessonId c).map f := by
  unfold chunksOf
  rw [hRows, List.filter_map]
  congr 1
  refine List.filter_congr fun q _ => ?_
  simp [hf]

def withMetadata (id : UUID) (a b : ℚ) (summary : String) (q : LessonTranscriptChunk) :
    LessonTranscriptChunk :=
  if q.id = id then setMetadata a b summary q else q

@[simp] theorem withMetadata_id (id : UUID) (a b : ℚ) (summary : String)
    (q : LessonTranscriptChunk) : (withMetadata id a b summary q).id = q.id := by
  unfold withMetadata
  split <;> rfl

@[simp] theorem withMetadata_lessonId (id : UUID) (a b : ℚ) (summary : String)
    (q : LessonTranscriptChunk) : (withMetadata id a b summary q).lessonId = q.lessonId := by
  unfold withMetadata
  split <;> rfl

@[simp] theorem withMetadata_orderIndex (id : UUID) (a b : ℚ) (summary : String)
    (q : LessonTranscriptChunk) : (withMetadata id a b summary q).orderIndex = q.orderIndex := by
  unfold withMetadata
  split <;> rfl

variable (lessonId c)

theorem chunksOf_updateChunkMetadata (id : UUID) (a b : ℚ) (summary : String) :
    chunksOf lessonId ((Write.updateChunkMetadata id a b summary).applyContent c) =
      (chunksOf lessonId c).map (withMetadata id a b summary) := by
  refine chunksOf_map ?_ fun q => withMetadata_lessonId id a b summary q
  simp [Write.applyContent, ForeignKey.updateParents, Table.update, withMetadata]

theorem chunksOf_insertLessonTranscriptChunk {row : LessonTranscriptChunk}
    (hFresh : c.parents.find row.id = none) :
    chunksOf lessonId ((Write.insertLessonTranscriptChunk row).applyContent c) =
      chunksOf lessonId c ++ if row.lessonId = lessonId then [row] else [] := by
  have hNew : row.id ∉ c.parents.rows.map (·.id) := Table.find_eq_none_iff.mp hFresh
  unfold chunksOf
  show ((c.insertParents [row]).getD c).parents.rows.filter _ = _
  rw [ForeignKey.insertParents, dif_neg hNew]
  show (c.parents.rows ++ [row]).filter _ = _
  rw [List.filter_append]
  by_cases hLesson : row.lessonId = lessonId <;> simp [hLesson]

theorem chunksOf_removeContent (id : UUID) :
    chunksOf lessonId (removeContent id c) = (chunksOf lessonId c).filter fun q => q.id ≠ id := by
  unfold chunksOf
  show (c.parents.rows.filter fun q => !decide (q.id = id)).filter _ = _
  rw [List.filter_filter, List.filter_filter]
  refine List.filter_congr fun q _ => ?_
  simp [Bool.and_comm]

end Writes

section Reorder

variable {lessonId : UUID} {c : Content}

/-- The row of a chunk among `ids`, numbered from `k` on. -/
def numbered (k : Nat) (ids : List UUID) (q : LessonTranscriptChunk) : LessonTranscriptChunk :=
  if q.id ∈ ids then setOrderIndex (k + ids.idxOf q.id) q else q

theorem rows_setIndexes {ids : List UUID} (hNodup : ids.Nodup) (k : Nat) :
    (setIndexes k ids c).parents.rows = c.parents.rows.map (numbered k ids) := by
  induction ids generalizing k c with
  | nil =>
    have hSame : numbered k [] = id := by
      funext q
      simp [numbered]
    rw [hSame, List.map_id]
    rfl
  | cons id ids ih =>
    obtain ⟨hNew, hNodup⟩ := List.nodup_cons.mp hNodup
    rw [setIndexes, ih hNodup]
    show ((c.parents.rows.map fun q =>
      if decide (q.id = id) = true then setOrderIndex k q else q).map (numbered (k + 1) ids)) = _
    rw [List.map_map]
    refine List.map_congr_left fun q _ => ?_
    by_cases hId : q.id = id
    · have hNotIn : id ∉ ids := hNew
      simp [numbered, hId, hNotIn]
    · have hNe : id ≠ q.id := Ne.symm hId
      by_cases hIn : q.id ∈ ids
      · simp [numbered, hId, hIn, List.idxOf_cons_ne ids hNe]
        congr 1
        omega
      · simp [numbered, hId, hIn]

theorem byStart_ids (lessonId : UUID) (c : Content) : (byStart lessonId c).map (·.id) =
    rankedKeys (·.id) (fun a b => a.startSeconds ≤ b.startSeconds) (chunksOf lessonId c) := rfl

/-- The place of a chunk in the order of the starts. -/
def rank (lessonId : UUID) (c : Content) (id : UUID) : Nat :=
  rowNumber (·.id) (fun a b : LessonTranscriptChunk => a.startSeconds ≤ b.startSeconds)
    (chunksOf lessonId c) id

theorem rows_reorder : (reorder lessonId c).parents.rows = c.parents.rows.map fun q =>
    if q.id ∈ (chunksOf lessonId c).map (·.id) then setOrderIndex (rank lessonId c q.id) q
    else q := by
  have hNodup : (rankedKeys (·.id) (fun a b => a.startSeconds ≤ b.startSeconds)
      (chunksOf lessonId c)).Nodup := rankedKeys_nodup (nodup_chunksOf lessonId c)
  rw [reorder, byStart_ids, rows_setIndexes hNodup]
  refine List.map_congr_left fun q _ => ?_
  unfold numbered rank rowNumber
  rw [Nat.zero_add]
  refine if_congr ?_ rfl rfl
  exact rankedKeys_perm.mem_iff

theorem chunksOf_reorder (lesson : UUID) : chunksOf lesson (reorder lessonId c) =
    if lesson = lessonId then
      (chunksOf lessonId c).map fun q => setOrderIndex (rank lessonId c q.id) q
    else chunksOf lesson c := by
  rw [chunksOf_map rows_reorder fun q => by split <;> rfl]
  split
  · next hLesson =>
    rw [hLesson]
    exact List.map_congr_left fun q hq => if_pos (List.mem_map_of_mem hq)
  · next hOther =>
    calc (chunksOf lesson c).map _ = (chunksOf lesson c).map id :=
          List.map_congr_left fun q hq => if_neg fun hIn => ?_
      _ = chunksOf lesson c := List.map_id _
    obtain ⟨q', hq', hId⟩ := List.mem_map.mp hIn
    have hFind := find_of_mem_chunksOf hq'
    rw [hId, find_of_mem_chunksOf hq] at hFind
    cases hFind
    exact hOther ((mem_chunksOf.mp hq).2.symm.trans (mem_chunksOf.mp hq').2)

theorem inOrder_reorder (lessonId : UUID) (c : Content) :
    InOrder lessonId (reorder lessonId c) := by
  have hChunks : chunksOf lessonId (reorder lessonId c) = _ := chunksOf_reorder lessonId
  rw [if_pos rfl] at hChunks
  constructor
  · rw [hChunks, List.map_map, List.length_map]
    exact rowNumber_perm (nodup_chunksOf lessonId c)
  · rw [hChunks]
    intro q hq q' hq' hLt
    obtain ⟨p, hp, rfl⟩ := List.mem_map.mp hq
    obtain ⟨p', hp', rfl⟩ := List.mem_map.mp hq'
    exact rowNumber_lt (nodup_chunksOf lessonId c) hp hp' (not_le.mpr hLt)

/-- Rows that keep their ids and bounds keep the timeline. -/
theorem spansOf_of_map {lesson : UUID} {c' : Content}
    {f : LessonTranscriptChunk → LessonTranscriptChunk}
    (hChunks : chunksOf lesson c' = (chunksOf lesson c).map f)
    (hf : ∀ q, (f q).id = q.id ∧ (f q).startSeconds = q.startSeconds ∧
      (f q).endSeconds = q.endSeconds) : spansOf lesson c' = spansOf lesson c := by
  funext k
  refine Option.ext fun ⟨a, b⟩ => ?_
  rw [spansOf_eq_some, spansOf_eq_some, hChunks]
  constructor
  · rintro ⟨q, hq, hId, hStart, hEnd⟩
    obtain ⟨p, hp, rfl⟩ := List.mem_map.mp hq
    obtain ⟨hfId, hfStart, hfEnd⟩ := hf p
    exact ⟨p, hp, hfId ▸ hId, hfStart ▸ hStart, hfEnd ▸ hEnd⟩
  · rintro ⟨q, hq, hId, hStart, hEnd⟩
    obtain ⟨hfId, hfStart, hfEnd⟩ := hf q
    exact ⟨f q, List.mem_map_of_mem hq, hfId.trans hId, hfStart.trans hStart, hfEnd.trans hEnd⟩

theorem spansOf_reorder (lesson lessonId : UUID) (c : Content) :
    spansOf lesson (reorder lessonId c) = spansOf lesson c := by
  have hChunks : chunksOf lesson (reorder lessonId c) = _ := chunksOf_reorder lesson
  split at hChunks
  · next hLesson =>
    subst hLesson
    exact spansOf_of_map hChunks fun q => ⟨rfl, rfl, rfl⟩
  · refine spansOf_of_map (f := id) ?_ fun q => ⟨rfl, rfl, rfl⟩
    rw [List.map_id]
    exact hChunks

theorem spansOf_removeContent (lesson id : UUID) (c : Content) :
    spansOf lesson (removeContent id c) = (spansOf lesson c).set id none := by
  funext k
  refine Option.ext fun ⟨a, b⟩ => ?_
  by_cases hk : k = id
  · subst hk
    rw [Spans.set_self, spansOf_eq_some, chunksOf_removeContent]
    constructor
    · rintro ⟨q, hq, hId, _⟩
      have hNe := (List.mem_filter.mp hq).2
      simp [hId] at hNe
    · nofun
  · rw [Spans.set_of_ne _ _ hk, spansOf_eq_some, spansOf_eq_some, chunksOf_removeContent]
    constructor
    · rintro ⟨q, hq, hBounds⟩
      exact ⟨q, (List.mem_filter.mp hq).1, hBounds⟩
    · rintro ⟨q, hq, hId, hBounds⟩
      exact ⟨q, List.mem_filter.mpr ⟨hq, by simpa [hId] using hk⟩, hId, hBounds⟩

end Reorder

section Ordered

variable {lessonId : UUID} {c : Content} {q q' : LessonTranscriptChunk}

theorem lessonAt_of_find {id : UUID} (h : c.parents.find id = some q) :
    lessonAt c q.id = some q.lessonId := by
  rw [lessonAt, Table.find_key h, h]
  rfl

theorem mem_of_find {id : UUID} (h : c.parents.find id = some q) (hLesson : q.lessonId = lessonId) :
    q ∈ chunksOf lessonId c := mem_chunksOf.mpr ⟨by rw [Table.find_key h, h], hLesson⟩

theorem span_of_mem (h : q ∈ chunksOf lessonId c) :
    spansOf lessonId c q.id = some (q.startSeconds, q.endSeconds) :=
  spansOf_eq_some.mpr ⟨q, h, rfl, rfl, rfl⟩

theorem InOrder.eq_of_index (hOrder : InOrder lessonId c) (hq : q ∈ chunksOf lessonId c)
    (hq' : q' ∈ chunksOf lessonId c) (h : q.orderIndex = q'.orderIndex) : q = q' :=
  List.inj_on_of_nodup_map (hOrder.indices.nodup_iff.mpr List.nodup_range) hq hq' h

/-- A chunk with a smaller number ends before the other one begins. -/
theorem InOrder.before (hOrder : InOrder lessonId c) (hValid : ValidTimeline lessonId c)
    (hq : q ∈ chunksOf lessonId c) (hq' : q' ∈ chunksOf lessonId c)
    (h : q.orderIndex < q'.orderIndex) : q.endSeconds ≤ q'.startSeconds := by
  have hNe : q.id ≠ q'.id := by
    intro hId
    rw [eq_of_id hq hq' hId] at h
    exact lt_irrefl _ h
  rcases hValid.apart q hq q' hq' hNe with hBefore | hAfter
  · exact hBefore
  · have hStart : q'.startSeconds < q.startSeconds := lt_of_lt_of_le (hValid.proper q' hq') hAfter
    exact absurd (hOrder.increasing q' hq' q hq hStart) (Nat.lt_asymm h)

/-- Between two chunks with adjacent numbers there is no other. -/
theorem InOrder.clear (hOrder : InOrder lessonId c) (hValid : ValidTimeline lessonId c)
    (hq : q ∈ chunksOf lessonId c) (hq' : q' ∈ chunksOf lessonId c)
    (h : q.orderIndex + 1 = q'.orderIndex) :
    (spansOf lessonId c).Clear (fun k => k = q.id ∨ k = q'.id) q.startSeconds q'.endSeconds := by
  intro k a b hOther hSpan
  obtain ⟨p, hp, rfl, rfl, rfl⟩ := spansOf_eq_some.mp hSpan
  obtain ⟨hNeQ, hNeQ'⟩ := not_or.mp hOther
  have hIndexQ : p.orderIndex ≠ q.orderIndex := fun hEq =>
    hNeQ (congrArg LessonTranscriptChunk.id (hOrder.eq_of_index hp hq hEq))
  have hIndexQ' : p.orderIndex ≠ q'.orderIndex := fun hEq =>
    hNeQ' (congrArg LessonTranscriptChunk.id (hOrder.eq_of_index hp hq' hEq))
  rcases Nat.lt_or_gt_of_ne hIndexQ with hBefore | hAfter
  · exact .inl (hOrder.before hValid hp hq hBefore)
  · exact .inr (hOrder.before hValid hq' hp (by omega))

/-- Chunks of other lessons are not touched. -/
theorem map_withMetadata_of_other {id : UUID} (a b : ℚ) (summary : String)
    (h : lessonAt c id ≠ some lessonId) :
    (chunksOf lessonId c).map (withMetadata id a b summary) = chunksOf lessonId c := by
  calc (chunksOf lessonId c).map (withMetadata id a b summary) = (chunksOf lessonId c).map (·) :=
        List.map_congr_left fun q hq => if_neg ?_
    _ = chunksOf lessonId c := List.map_id _
  rintro rfl
  refine h ?_
  rw [lessonAt, find_of_mem_chunksOf hq]
  exact congrArg some (mem_chunksOf.mp hq).2

theorem filter_id_of_other {id : UUID} (h : lessonAt c id ≠ some lessonId) :
    (chunksOf lessonId c).filter (fun q => q.id ≠ id) = chunksOf lessonId c := by
  refine List.filter_eq_self.mpr fun q hq => ?_
  simp only [ne_eq, decide_not, Bool.not_eq_eq_eq_not, Bool.not_true, decide_eq_false_iff_not]
  rintro rfl
  refine h ?_
  rw [lessonAt, find_of_mem_chunksOf hq]
  exact congrArg some (mem_chunksOf.mp hq).2

theorem inOrder_of_chunksOf {c' : Content} (h : chunksOf lessonId c' = chunksOf lessonId c)
    (hOrder : InOrder lessonId c) : InOrder lessonId c' :=
  ⟨h ▸ hOrder.indices, h ▸ hOrder.increasing⟩

end Ordered

section Spans

variable {lesson : UUID} {c : Content}

theorem spansOf_splitContent {chunkID : UUID} {chunk row : LessonTranscriptChunk} {splitAt : ℚ}
    (hFound : c.parents.find chunkID = some chunk) (hFresh : c.parents.find row.id = none)
    (hBounds : row.lessonId = chunk.lessonId ∧ row.startSeconds = splitAt ∧
      row.endSeconds = chunk.endSeconds) :
    spansOf lesson (splitContent chunk row splitAt c) = if chunk.lessonId = lesson then
      ((spansOf lesson c).set chunk.id (some (chunk.startSeconds, splitAt))).set row.id
        (some (splitAt, chunk.endSeconds)) else spansOf lesson c := by
  obtain ⟨hLesson, hStart, hEnd⟩ := hBounds
  have hFree : ((Write.updateChunkMetadata chunk.id chunk.startSeconds splitAt
      chunk.summary).applyContent c).parents.find row.id = none := by
    rw [find_updateChunkMetadata, hFresh]
    rfl
  rw [splitContent, spansOf_reorder, spansOf_insertLessonTranscriptChunk,
    spansOf_updateChunkMetadata, lessonAt_of_find hFound, hLesson, hStart, hEnd]
  by_cases hOf : chunk.lessonId = lesson
  · rw [if_pos ⟨hOf, hFree⟩, if_pos (congrArg some hOf), if_pos hOf]
  · rw [if_neg fun h => hOf h.1, if_neg fun h => hOf (Option.some.inj h), if_neg hOf]

theorem spansOf_adjustContent {prevID nextID : UUID} {prev next : LessonTranscriptChunk} (b : ℚ)
    (hPrev : c.parents.find prevID = some prev) (hNext : c.parents.find nextID = some next)
    (hSame : prev.lessonId = next.lessonId) :
    spansOf lesson (adjustContent prev next b c) = if prev.lessonId = lesson then
      ((spansOf lesson c).set prev.id (some (prev.startSeconds, b))).set next.id
        (some (b, next.endSeconds)) else spansOf lesson c := by
  rw [adjustContent, spansOf_updateChunkMetadata, spansOf_updateChunkMetadata,
    lessonAt_updateChunkMetadata, lessonAt_of_find hPrev, lessonAt_of_find hNext, ← hSame]
  by_cases hOf : prev.lessonId = lesson
  · rw [if_pos (congrArg some hOf), if_pos (congrArg some hOf), if_pos hOf]
  · have hNe : some prev.lessonId ≠ some lesson := fun h => hOf (Option.some.inj h)
    rw [if_neg hNe, if_neg hNe, if_neg hOf]

theorem find_removeContent (id k : UUID) : (removeContent id c).parents.find k =
    (c.parents.find k).filter fun q => !decide (q.id = id) :=
  Table.find_delete (fun q : LessonTranscriptChunk => decide (q.id = id)) k

theorem lessonAt_removeContent {keepID discardID : UUID} {keep discard : LessonTranscriptChunk}
    (hKeep : c.parents.find keepID = some keep) (hDiscard : c.parents.find discardID = some discard)
    (hNe : keepID ≠ discardID) :
    lessonAt (removeContent discard.id c) keep.id = some keep.lessonId := by
  have hIds : keep.id ≠ discard.id := by
    rw [Table.find_key hKeep, Table.find_key hDiscard]
    exact hNe
  have hFind : c.parents.find keep.id = some keep := by rw [Table.find_key hKeep, hKeep]
  rw [lessonAt, find_removeContent, hFind]
  simp [hIds]

theorem spansOf_mergeContent {keepID discardID : UUID} {keep discard : LessonTranscriptChunk}
    (hKeep : c.parents.find keepID = some keep) (hDiscard : c.parents.find discardID = some discard)
    (hNe : keepID ≠ discardID) (hSame : keep.lessonId = discard.lessonId) :
    spansOf lesson (mergeContent keep discard c) = if keep.lessonId = lesson then
      ((spansOf lesson c).set discard.id none).set keep.id
        (some (min keep.startSeconds discard.startSeconds, max keep.endSeconds discard.endSeconds))
      else spansOf lesson c := by
  rw [mergeContent, spansOf_reorder, spansOf_updateChunkMetadata,
    lessonAt_removeContent hKeep hDiscard hNe, spansOf_removeContent]
  by_cases hOf : keep.lessonId = lesson
  · rw [if_pos (congrArg some hOf), if_pos hOf]
  · have hNe : some keep.lessonId ≠ some lesson := fun h => hOf (Option.some.inj h)
    rw [if_neg hNe, if_neg hOf]
    refine Spans.set_eq_self (spansOf_of_lessonAt_ne ?_)
    rw [lessonAt_of_find hDiscard, ← hSame]
    exact hNe

end Spans

section Steps

variable {G : Env → Prop} {d : Editor} {lessonId : UUID} {e e' : Shown}

theorem IsSplit.valid {chunkID : UUID} {splitAt : ℚ} {chunk row : LessonTranscriptChunk}
    (h : IsSplit G chunkID splitAt chunk row e e')
    (hValid : ValidTimeline lessonId e.content) : ValidTimeline lessonId e'.content := by
  rw [validTimeline_iff, h.content, spansOf_splitContent h.found h.fresh h.bounds]
  have hTimeline := validTimeline_iff.mp hValid
  split
  · next hLesson =>
    have hSpan := span_of_mem (mem_of_find h.found hLesson)
    exact hTimeline.cut h.within.1 h.within.2
      ((hTimeline.clear hSpan).mono (fun _ => .inl) le_rfl le_rfl)
  · exact hTimeline

theorem IsSplit.inOrder {chunkID : UUID} {splitAt : ℚ} {chunk row : LessonTranscriptChunk}
    (h : IsSplit G chunkID splitAt chunk row e e')
    (hOrder : InOrder lessonId e.content) : InOrder lessonId e'.content := by
  rw [h.content, splitContent]
  by_cases hLesson : chunk.lessonId = lessonId
  · subst hLesson
    exact inOrder_reorder _ _
  · refine inOrder_of_chunksOf ?_ hOrder
    have hFree : ((Write.updateChunkMetadata chunk.id chunk.startSeconds splitAt
        chunk.summary).applyContent e.content).parents.find row.id = none := by
      rw [find_updateChunkMetadata, h.fresh]
      rfl
    rw [chunksOf_reorder, if_neg (Ne.symm hLesson),
      chunksOf_insertLessonTranscriptChunk lessonId _ hFree, h.bounds.1, if_neg hLesson,
      List.append_nil, chunksOf_updateChunkMetadata]
    refine map_withMetadata_of_other _ _ _ ?_
    rw [lessonAt_of_find h.found]
    exact fun hSome => hLesson (Option.some.inj hSome)

theorem IsAdjustment.valid {prevID nextID : UUID} {b : ℚ} {prev next : LessonTranscriptChunk}
    (h : IsAdjustment prevID nextID b prev next e e')
    (hValid : ValidTimeline lessonId e.content) (hOrder : InOrder lessonId e.content) :
    ValidTimeline lessonId e'.content := by
  rw [validTimeline_iff, h.content,
    spansOf_adjustContent b h.foundPrev h.foundNext h.sameLesson]
  have hTimeline := validTimeline_iff.mp hValid
  split
  · next hLesson =>
    exact hTimeline.cut h.within.1 h.within.2 (hOrder.clear hValid
      (mem_of_find h.foundPrev hLesson) (mem_of_find h.foundNext (h.sameLesson ▸ hLesson))
      h.adjacent)
  · exact hTimeline

theorem withMetadata_startSeconds (id : UUID) (a b : ℚ) (summary : String)
    (q : LessonTranscriptChunk) : (withMetadata id a b summary q).startSeconds =
      if q.id = id then a else q.startSeconds := by
  unfold withMetadata
  split <;> rfl

/-- An adjustment moves no chunk past another. -/
theorem IsAdjustment.increasing {prevID nextID : UUID} {b : ℚ} {prev next : LessonTranscriptChunk}
    (h : IsAdjustment prevID nextID b prev next e e')
    (hValid : ValidTimeline lessonId e.content) (hOrder : InOrder lessonId e.content)
    (hPrev : prev ∈ chunksOf lessonId e.content) (hNext : next ∈ chunksOf lessonId e.content)
    {q q' : LessonTranscriptChunk} (hq : q ∈ chunksOf lessonId e.content)
    (hq' : q' ∈ chunksOf lessonId e.content)
    (hLt : (if q.id = next.id then b else q.startSeconds) <
      if q'.id = next.id then b else q'.startSeconds) : q.orderIndex < q'.orderIndex := by
  by_contra hNot
  rcases Nat.lt_or_eq_of_le (Nat.le_of_not_lt hNot) with hIndex | hIndex
  · have hEnd : q'.endSeconds ≤ q.startSeconds := hOrder.before hValid hq' hq hIndex
    have hProper : q'.startSeconds < q'.endSeconds := hValid.proper q' hq'
    by_cases hIsNext : q.id = next.id <;> by_cases hIsNext' : q'.id = next.id
    · simp [hIsNext, hIsNext'] at hLt
    · rw [if_pos hIsNext, if_neg hIsNext'] at hLt
      cases eq_of_id hq hNext hIsNext
      have hAdjacent := h.adjacent
      rcases Nat.lt_or_eq_of_le (show q'.orderIndex ≤ prev.orderIndex by omega) with hLow | hSame
      · have hBefore : q'.endSeconds ≤ prev.startSeconds := hOrder.before hValid hq' hPrev hLow
        exact absurd (hLt.trans (hProper.trans_le hBefore)) (lt_asymm h.within.1)
      · cases hOrder.eq_of_index hq' hPrev hSame
        exact lt_asymm hLt h.within.1
    · rw [if_neg hIsNext, if_pos hIsNext'] at hLt
      cases eq_of_id hq' hNext hIsNext'
      exact absurd (hLt.trans h.within.2) (not_lt.mpr hEnd)
    · rw [if_neg hIsNext, if_neg hIsNext'] at hLt
      exact absurd (hLt.trans hProper) (not_lt.mpr hEnd)
  · cases hOrder.eq_of_index hq' hq hIndex
    exact lt_irrefl _ hLt

theorem IsAdjustment.inOrder {prevID nextID : UUID} {b : ℚ} {prev next : LessonTranscriptChunk}
    (h : IsAdjustment prevID nextID b prev next e e')
    (hValid : ValidTimeline lessonId e.content) (hOrder : InOrder lessonId e.content) :
    InOrder lessonId e'.content := by
  have hChunks : chunksOf lessonId e'.content = ((chunksOf lessonId e.content).map
      (withMetadata prev.id prev.startSeconds b prev.summary)).map
        (withMetadata next.id b next.endSeconds next.summary) := by
    rw [h.content, adjustContent, chunksOf_updateChunkMetadata, chunksOf_updateChunkMetadata]
  by_cases hLesson : prev.lessonId = lessonId
  · have hPrev := mem_of_find h.foundPrev hLesson
    have hNext := mem_of_find h.foundNext (h.sameLesson ▸ hLesson)
    -- Only the start of `next` moves.
    have hStart : ∀ q ∈ chunksOf lessonId e.content,
        (withMetadata next.id b next.endSeconds next.summary
          (withMetadata prev.id prev.startSeconds b prev.summary q)).startSeconds =
        if q.id = next.id then b else q.startSeconds := by
      intro q hq
      rw [withMetadata_startSeconds, withMetadata_id, withMetadata_startSeconds]
      by_cases hIsPrev : q.id = prev.id
      · cases eq_of_id hq hPrev hIsPrev
        rw [if_pos rfl]
      · rw [if_neg hIsPrev]
    constructor
    · simpa [hChunks, Function.comp_def] using hOrder.indices
    · rw [hChunks, List.map_map]
      intro p hp p' hp' hLt
      obtain ⟨q, hq, rfl⟩ := List.mem_map.mp hp
      obtain ⟨q', hq', rfl⟩ := List.mem_map.mp hp'
      simp only [Function.comp_apply, hStart q hq, hStart q' hq', withMetadata_orderIndex] at hLt ⊢
      exact h.increasing hValid hOrder hPrev hNext hq hq' hLt
  · refine inOrder_of_chunksOf ?_ hOrder
    have hNe : some prev.lessonId ≠ some lessonId := fun hSome => hLesson (Option.some.inj hSome)
    rw [hChunks, map_withMetadata_of_other _ _ _ (by rwa [lessonAt_of_find h.foundPrev]),
      map_withMetadata_of_other _ _ _ (by rwa [lessonAt_of_find h.foundNext, ← h.sameLesson])]

theorem IsMerge.valid {keepID discardID : UUID} {keep discard : LessonTranscriptChunk}
    (h : IsMerge keepID discardID keep discard e e')
    (hValid : ValidTimeline lessonId e.content) (hOrder : InOrder lessonId e.content) :
    ValidTimeline lessonId e'.content := by
  rw [validTimeline_iff, h.content,
    spansOf_mergeContent h.foundKeep h.foundDiscard h.different h.sameLesson]
  have hTimeline := validTimeline_iff.mp hValid
  split
  · next hLesson =>
    have hKeep := mem_of_find h.foundKeep hLesson
    have hDiscard := mem_of_find h.foundDiscard (h.sameLesson ▸ hLesson)
    have hProper := hValid.proper keep hKeep
    have hProper' := hValid.proper discard hDiscard
    refine hTimeline.absorb (lt_of_le_of_lt (min_le_left _ _) (lt_of_lt_of_le hProper
      (le_max_left _ _))) ?_
    rcases h.adjacent with hAfter | hBefore
    · have hEnd := hOrder.before hValid hDiscard hKeep (by omega)
      have hStarts : discard.startSeconds ≤ keep.startSeconds := hProper'.le.trans hEnd
      have hEnds : discard.endSeconds ≤ keep.endSeconds := hEnd.trans hProper.le
      rw [min_eq_right hStarts, max_eq_left hEnds]
      exact (hOrder.clear hValid hDiscard hKeep hAfter.symm).mono (fun _ => Or.symm) le_rfl le_rfl
    · have hEnd := hOrder.before hValid hKeep hDiscard (by omega)
      have hStarts : keep.startSeconds ≤ discard.startSeconds := hProper.le.trans hEnd
      have hEnds : keep.endSeconds ≤ discard.endSeconds := hEnd.trans hProper'.le
      rw [min_eq_left hStarts, max_eq_right hEnds]
      exact hOrder.clear hValid hKeep hDiscard hBefore.symm
  · exact hTimeline

theorem IsMerge.inOrder {keepID discardID : UUID} {keep discard : LessonTranscriptChunk}
    (h : IsMerge keepID discardID keep discard e e') (hOrder : InOrder lessonId e.content) :
    InOrder lessonId e'.content := by
  rw [h.content, mergeContent]
  by_cases hLesson : keep.lessonId = lessonId
  · subst hLesson
    exact inOrder_reorder _ _
  · have hNe : some keep.lessonId ≠ some lessonId := fun hSome => hLesson (Option.some.inj hSome)
    refine inOrder_of_chunksOf ?_ hOrder
    rw [chunksOf_reorder, if_neg (Ne.symm hLesson), chunksOf_updateChunkMetadata,
      map_withMetadata_of_other _ _ _ (by
        rwa [lessonAt_removeContent h.foundKeep h.foundDiscard h.different]),
      chunksOf_removeContent]
    refine filter_id_of_other ?_
    rwa [lessonAt_of_find h.foundDiscard, ← h.sameLesson]

theorem IsDeletion.valid {chunkID : UUID} {chunk : LessonTranscriptChunk}
    (h : IsDeletion chunkID chunk e e') (hValid : ValidTimeline lessonId e.content) :
    ValidTimeline lessonId e'.content := by
  rw [validTimeline_iff, h.content, deleteContent, spansOf_reorder, spansOf_removeContent]
  exact (validTimeline_iff.mp hValid).erase _

theorem IsDeletion.inOrder {chunkID : UUID} {chunk : LessonTranscriptChunk}
    (h : IsDeletion chunkID chunk e e') (hOrder : InOrder lessonId e.content) :
    InOrder lessonId e'.content := by
  rw [h.content, deleteContent]
  by_cases hLesson : chunk.lessonId = lessonId
  · subst hLesson
    exact inOrder_reorder _ _
  · refine inOrder_of_chunksOf ?_ hOrder
    rw [chunksOf_reorder, if_neg (Ne.symm hLesson), chunksOf_removeContent]
    refine filter_id_of_other ?_
    rw [lessonAt_of_find h.found]
    exact fun hSome => hLesson (Option.some.inj hSome)

end Steps

section Outcome

/-- A chunk of the lesson covers the time `x`. -/
def Covers (lessonId : UUID) (c : Content) (x : ℚ) : Prop :=
  ∃ q ∈ chunksOf lessonId c, q.startSeconds ≤ x ∧ x < q.endSeconds

/-- The test of `BuildChunkTranscript` for one segment. -/
def selects (q : LessonTranscriptChunk) (seg : Segment) : Bool :=
  q.startSeconds ≤ seg.startSeconds && seg.startSeconds < q.endSeconds

theorem buildChunkTranscript_selects (segs : List Segment) (q : LessonTranscriptChunk) :
    buildChunkTranscript segs q.startSeconds q.endSeconds =
      trimSpace (String.join ((segs.filter (selects q)).map fun seg => seg.text ++ " ")) := rfl

/-- Each segment that starts within the window goes to exactly one of the two chunks. -/
def Partition (lo hi : ℚ) (first second : LessonTranscriptChunk) : Prop :=
  ∀ seg : Segment, lo ≤ seg.startSeconds → seg.startSeconds < hi →
    (selects first seg ^^ selects second seg) = true

/-- What a request leaves of the chunks that it names. -/
def Request.Outcome (c c' : Content) : Request → Prop
  | .split chunkID _ => ∃ chunk first second, c.parents.find chunkID = some chunk ∧
      c'.parents.find chunkID = some first ∧ c.parents.find second.id = none ∧
      c'.parents.find second.id = some second ∧
      (∀ x, Covers chunk.lessonId c' x ↔ Covers chunk.lessonId c x) ∧
      Partition chunk.startSeconds chunk.endSeconds first second
  | .adjustBoundary prevID nextID _ => ∃ prev next first second,
      c.parents.find prevID = some prev ∧ c.parents.find nextID = some next ∧
      c'.parents.find prevID = some first ∧ c'.parents.find nextID = some second ∧
      Partition prev.startSeconds next.endSeconds first second
  | .merge keepID discardID => ∃ keep discard merged,
      c.parents.find keepID = some keep ∧ c.parents.find discardID = some discard ∧
      c'.parents.find discardID = none ∧ c'.parents.find keepID = some merged ∧
      merged.startSeconds = min keep.startSeconds discard.startSeconds ∧
      merged.endSeconds = max keep.endSeconds discard.endSeconds
  | .delete chunkID => c'.parents.find chunkID = none
  | .updateSegment .. => c' = c

variable {G : Env → Prop} {lessonId : UUID} {c : Content} {e e' : Shown}

theorem covers_iff {x : ℚ} : Covers lessonId c x ↔
    (spansOf lessonId c).Covered x := by
  constructor
  · rintro ⟨q, hq, hStart, hEnd⟩
    exact ⟨q.id, _, _, span_of_mem hq, hStart, hEnd⟩
  · rintro ⟨k, a, b, hSpan, hStart, hEnd⟩
    obtain ⟨q, hq, rfl, rfl, rfl⟩ := spansOf_eq_some.mp hSpan
    exact ⟨q, hq, hStart, hEnd⟩

theorem exists_of_span {k : UUID} {a b : ℚ} (h : spansOf lessonId c k = some (a, b)) :
    ∃ q, c.parents.find k = some q ∧ q.id = k ∧ q.startSeconds = a ∧ q.endSeconds = b := by
  obtain ⟨q, hq, rfl, hStart, hEnd⟩ := spansOf_eq_some.mp h
  exact ⟨q, find_of_mem_chunksOf hq, rfl, hStart, hEnd⟩

theorem find_reorder_eq_none {k : UUID} :
    (reorder lessonId c).parents.find k = none ↔ c.parents.find k = none := by
  have hKeys : (reorder lessonId c).parents.rows.map LessonTranscriptChunk.id =
      c.parents.rows.map LessonTranscriptChunk.id := by
    rw [rows_reorder, List.map_map]
    refine List.map_congr_left fun q _ => ?_
    rw [Function.comp_apply]
    split <;> rfl
  rw [Table.find_eq_none_iff, Table.find_eq_none_iff, hKeys]

theorem find_removeContent_self {id : UUID} : (removeContent id c).parents.find id = none := by
  rw [find_removeContent]
  cases hFind : c.parents.find id with
  | none => rfl
  | some q => simp [Option.filter, Table.find_key hFind]

theorem partition_of_bounds {lo mid hi : ℚ} {first second : LessonTranscriptChunk}
    (hFirst : first.startSeconds = lo ∧ first.endSeconds = mid)
    (hSecond : second.startSeconds = mid ∧ second.endSeconds = hi) :
    Partition lo hi first second := by
  intro seg hStart hEnd
  unfold selects
  rw [hFirst.1, hFirst.2, hSecond.1, hSecond.2]
  rcases lt_or_ge seg.startSeconds mid with hBefore | hAfter
  · simp [hStart, hBefore, not_le.mpr hBefore]
  · simp [hEnd, hAfter, not_lt.mpr hAfter]

theorem IsSplit.outcome {chunkID : UUID} {splitAt : ℚ} {chunk row : LessonTranscriptChunk}
    (h : IsSplit G chunkID splitAt chunk row e e') :
    (Request.split chunkID splitAt).Outcome e.content e'.content := by
  have hId : chunk.id = chunkID := Table.find_key h.found
  have hFound : e.content.parents.find chunk.id = some chunk := by rw [hId, h.found]
  have hNe : chunk.id ≠ row.id := by
    intro hEq
    rw [hEq, h.fresh] at hFound
    cases hFound
  have hSpans : spansOf chunk.lessonId e'.content =
      ((spansOf chunk.lessonId e.content).set chunk.id (some (chunk.startSeconds, splitAt))).set
        row.id (some (splitAt, chunk.endSeconds)) := by
    rw [h.content, spansOf_splitContent h.found h.fresh h.bounds, if_pos rfl]
  obtain ⟨first, hFirst, _, hFirstStart, hFirstEnd⟩ := exists_of_span (k := chunk.id) (by
    rw [hSpans, Spans.set_of_ne _ _ hNe, Spans.set_self])
  obtain ⟨second, hSecond, hSecondId, hSecondStart, hSecondEnd⟩ := exists_of_span (k := row.id) (by
    rw [hSpans, Spans.set_self])
  refine ⟨chunk, first, second, h.found, hId ▸ hFirst, hSecondId ▸ h.fresh, hSecondId ▸ hSecond,
    fun x => ?_, partition_of_bounds ⟨hFirstStart, hFirstEnd⟩ ⟨hSecondStart, hSecondEnd⟩⟩
  rw [covers_iff, covers_iff, hSpans]
  have hSpan := span_of_mem (mem_of_find h.found rfl)
  refine Spans.covered_cut hSpan ?_ h.within.1.le h.within.2.le
  refine spansOf_of_lessonAt_ne ?_
  rw [lessonAt, h.fresh]
  nofun

theorem IsAdjustment.outcome {prevID nextID : UUID} {b : ℚ} {prev next : LessonTranscriptChunk}
    (h : IsAdjustment prevID nextID b prev next e e') :
    (Request.adjustBoundary prevID nextID b).Outcome e.content e'.content := by
  have hPrevId : prev.id = prevID := Table.find_key h.foundPrev
  have hNextId : next.id = nextID := Table.find_key h.foundNext
  have hNe : prev.id ≠ next.id := by
    intro hEq
    have hFind := h.foundPrev
    rw [← hPrevId, hEq, hNextId, h.foundNext] at hFind
    cases hFind
    exact absurd h.adjacent (by omega)
  have hSpans : spansOf prev.lessonId e'.content =
      ((spansOf prev.lessonId e.content).set prev.id (some (prev.startSeconds, b))).set
        next.id (some (b, next.endSeconds)) := by
    rw [h.content, spansOf_adjustContent b h.foundPrev h.foundNext h.sameLesson, if_pos rfl]
  obtain ⟨first, hFirst, _, hFirstStart, hFirstEnd⟩ := exists_of_span (k := prev.id) (by
    rw [hSpans, Spans.set_of_ne _ _ hNe, Spans.set_self])
  obtain ⟨second, hSecond, _, hSecondStart, hSecondEnd⟩ := exists_of_span (k := next.id) (by
    rw [hSpans, Spans.set_self])
  exact ⟨prev, next, first, second, h.foundPrev, h.foundNext, hPrevId ▸ hFirst, hNextId ▸ hSecond,
    partition_of_bounds ⟨hFirstStart, hFirstEnd⟩ ⟨hSecondStart, hSecondEnd⟩⟩

theorem IsMerge.outcome {keepID discardID : UUID} {keep discard : LessonTranscriptChunk}
    (h : IsMerge keepID discardID keep discard e e') :
    (Request.merge keepID discardID).Outcome e.content e'.content := by
  have hSpans : spansOf keep.lessonId (mergeContent keep discard e.content) = _ :=
    spansOf_mergeContent h.foundKeep h.foundDiscard h.different h.sameLesson
  rw [if_pos rfl, ← h.content] at hSpans
  obtain ⟨merged, hMerged, _, hStart, hEnd⟩ := exists_of_span (k := keep.id) (by
    rw [hSpans, Spans.set_self])
  refine ⟨keep, discard, merged, h.foundKeep, h.foundDiscard, ?_,
    Table.find_key h.foundKeep ▸ hMerged, hStart, hEnd⟩
  rw [h.content, mergeContent, find_reorder_eq_none, find_updateChunkMetadata,
    ← Table.find_key h.foundDiscard, find_removeContent_self]
  rfl

theorem IsDeletion.outcome {chunkID : UUID} {chunk : LessonTranscriptChunk}
    (h : IsDeletion chunkID chunk e e') :
    (Request.delete chunkID).Outcome e.content e'.content := by
  show e'.content.parents.find chunkID = none
  rw [h.content, deleteContent, find_reorder_eq_none, ← Table.find_key h.found,
    find_removeContent_self]

end Outcome

section Runs

variable {d : Editor} {lessonId : UUID} {s s' : Lessons.Store} {r : Request} {envs : List Env}

end Runs

end Richter.Chunkops
