import Richter.Chunkops.Chunking
import Richter.Chunkops.Editing
import Richter.Lib.Words

/-! The transcripts stored for the chunks of a lesson, and the words of the segments that fall into
the chunks. -/

namespace Richter.Chunkops

open Lib
open Lessons (AiCfg ChunkProposal Content Env Fail LessonTranscriptChunk SavedChunks Segment TaskEnv
  buildChunkTranscript chunkTranscript chunksOf fields isSpace trimSpace)

section Words

theorem fields_eq (s : String) : fields s = words isSpace s.toList := rfl

@[simp] theorem fields_empty : fields "" = [] := rfl

@[simp] theorem fields_trimSpace (s : String) : fields (trimSpace s) = fields s := by
  rw [fields_eq, fields_eq, trimSpace, String.toList_ofList, words_dropEnd, words_dropWhile]

/-- The words of two texts on two lines. -/
theorem fields_lines (a b : String) : fields (a ++ "\n" ++ b) = fields a ++ fields b := by
  have hLine : ("\n" : String).toList = ['\n'] := rfl
  rw [fields_eq, String.toList_append, String.toList_append, hLine, List.append_assoc,
    List.singleton_append, words_append_cons a.toList b.toList (by decide)]
  rfl

end Words

section Records

variable {texts : UUID → Option String} {id k : UUID}

theorem saveIf_self (text : String) :
    saveIf texts id text id = if text ≠ "" then some text else texts id := by
  unfold saveIf
  split
  · rw [Function.update_self]
  · rfl

theorem saveIf_of_ne (text : String) (h : k ≠ id) : saveIf texts id text k = texts k := by
  unfold saveIf
  split
  · rw [Function.update_of_ne h]
  · rfl

variable {text : LessonTranscriptChunk → String} {chunks : List LessonTranscriptChunk}

theorem saveAll_of_not_mem (h : k ∉ chunks.map (·.id)) : saveAll text chunks texts k = texts k := by
  induction chunks generalizing texts with
  | nil => rfl
  | cons c cs ih =>
    rw [List.map_cons, List.mem_cons, not_or] at h
    rw [saveAll, List.foldl_cons]
    exact (ih h.2).trans (saveIf_of_ne (text c) h.1)

theorem saveAll_of_mem (hNodup : (chunks.map (·.id)).Nodup) {q : LessonTranscriptChunk}
    (hq : q ∈ chunks) : saveAll text chunks texts q.id =
      if text q ≠ "" then some (text q) else texts q.id := by
  induction chunks generalizing texts with
  | nil => cases hq
  | cons c cs ih =>
    obtain ⟨hNew, hNodup⟩ := List.nodup_cons.mp hNodup
    rw [saveAll, List.foldl_cons]
    rcases List.mem_cons.mp hq with rfl | hq
    · exact (saveAll_of_not_mem hNew).trans (saveIf_self (text q))
    · have hNe : q.id ≠ c.id := fun hEq => hNew (List.mem_map.mpr ⟨q, hq, hEq⟩)
      have hRest : saveAll text cs (saveIf texts c.id (text c)) q.id = _ := ih hNodup hq
      rw [saveIf_of_ne (text c) hNe] at hRest
      exact hRest

theorem fields_saveAll (hNodup : (chunks.map (·.id)).Nodup) {q : LessonTranscriptChunk}
    (hq : q ∈ chunks) (hText : text q ≠ "") :
    fields ((saveAll text chunks texts q.id).getD "") = fields (text q) := by
  rw [saveAll_of_mem hNodup hq, if_pos hText]
  rfl

theorem clearAll_of_not_mem {ids : List UUID} (h : k ∉ ids) : clearAll ids texts k = texts k := by
  induction ids generalizing texts with
  | nil => rfl
  | cons id ids ih =>
    rw [List.mem_cons, not_or] at h
    rw [clearAll, List.foldl_cons]
    exact (ih h.2).trans (Function.update_of_ne h.1 none texts)

end Records

/-- Under the id of each span, the records hold the words of the span. -/
def Agree (spans : Spans UUID ℚ) (texts : UUID → Option String)
    (wordsOf : ℚ → ℚ → List (List Char)) : Prop :=
  ∀ id a b, spans id = some (a, b) → fields ((texts id).getD "") = wordsOf a b

namespace Agree

variable {spans : Spans UUID ℚ} {texts texts' : UUID → Option String}
  {wordsOf : ℚ → ℚ → List (List Char)} {id : UUID} {a b : ℚ} {text : String}

theorem frame (h : Agree spans texts wordsOf)
    (hTexts : ∀ id, spans id ≠ none → texts' id = texts id) : Agree spans texts' wordsOf := by
  intro id a b hSpan
  rw [hTexts id (by rw [hSpan]; nofun)]
  exact h id a b hSpan

theorem put (h : Agree spans texts wordsOf) (hText : fields text = wordsOf a b) :
    Agree (spans.set id (some (a, b))) (Function.update texts id (some text)) wordsOf := by
  intro k a' b' hSpan
  by_cases hk : k = id
  · subst hk
    rw [Spans.set_self] at hSpan
    cases hSpan
    rw [Function.update_self]
    exact hText
  · rw [Spans.set_of_ne _ _ hk] at hSpan
    rw [Function.update_of_ne hk]
    exact h k a' b' hSpan

theorem erase (h : Agree spans texts wordsOf) :
    Agree (spans.set id none) (Function.update texts id none) wordsOf := by
  intro k a b hSpan
  by_cases hk : k = id
  · subst hk
    rw [Spans.set_self] at hSpan
    cases hSpan
  · rw [Spans.set_of_ne _ _ hk] at hSpan
    rw [Function.update_of_ne hk]
    exact h k a b hSpan

/-- An empty text is not written: nothing may be stored in its place. -/
theorem save (h : Agree spans texts wordsOf) (hText : fields text = wordsOf a b)
    (hEmpty : text = "" → fields ((texts id).getD "") = []) :
    Agree (spans.set id (some (a, b))) (saveIf texts id text) wordsOf := by
  intro k a' b' hSpan
  by_cases hk : k = id
  · subst hk
    rw [Spans.set_self] at hSpan
    cases hSpan
    rw [saveIf_self]
    by_cases hNone : text = ""
    · rw [if_neg (not_not.mpr hNone), hEmpty hNone, ← hText, hNone, fields_empty]
    · rw [if_pos hNone]
      exact hText
  · rw [Spans.set_of_ne _ _ hk] at hSpan
    rw [saveIf_of_ne text hk]
    exact h k a' b' hSpan

end Agree

section TextsAgree

def segmentsOf (lessonId : UUID) (e : Shown) : List Segment := (e.segments lessonId).getD []

def storedWords (e : Shown) (id : UUID) : List (List Char) :=
  fields ((e.chunkTranscripts id).getD "")

def windowWords (lessonId : UUID) (e : Shown) (a b : ℚ) : List (List Char) :=
  fields (buildChunkTranscript (segmentsOf lessonId e) a b)

/-- Each chunk of the lesson is stored with the words of the segments that fall into it. -/
def TextsAgree (lessonId : UUID) (e : Shown) : Prop :=
  ∀ q ∈ chunksOf lessonId e.content,
    storedWords e q.id = windowWords lessonId e q.startSeconds q.endSeconds

instance (lessonId : UUID) (e : Shown) : Decidable (TextsAgree lessonId e) :=
  inferInstanceAs (Decidable (∀ q ∈ chunksOf lessonId e.content,
    storedWords e q.id = windowWords lessonId e q.startSeconds q.endSeconds))

/-- A text that is not written when it is empty leaves no other words in its place. -/
def Overwrites (e : Shown) (id : UUID) (text : String) : Prop :=
  text = "" → storedWords e id = []

instance (e : Shown) (id : UUID) (text : String) : Decidable (Overwrites e id text) :=
  inferInstanceAs (Decidable (text = "" → storedWords e id = []))

variable {lessonId : UUID} {e e' : Shown}

theorem textsAgree_iff : TextsAgree lessonId e ↔
    Agree (spansOf lessonId e.content) e.chunkTranscripts (windowWords lessonId e) := by
  constructor
  · intro h id a b hSpan
    obtain ⟨q, hq, rfl, rfl, rfl⟩ := spansOf_eq_some.mp hSpan
    exact h q hq
  · intro h q hq
    exact h q.id _ _ (span_of_mem hq)

theorem windowWords_of_segments (h : e'.segments lessonId = e.segments lessonId) :
    windowWords lessonId e' = windowWords lessonId e := by
  funext a b
  rw [windowWords, windowWords, segmentsOf, segmentsOf, h]

/-- A change that leaves the lesson alone. -/
theorem TextsAgree.frame (hSpans : spansOf lessonId e'.content = spansOf lessonId e.content)
    (hSegments : e'.segments lessonId = e.segments lessonId)
    (hTexts : ∀ id, spansOf lessonId e.content id ≠ none →
      e'.chunkTranscripts id = e.chunkTranscripts id) (h : TextsAgree lessonId e) :
    TextsAgree lessonId e' := by
  rw [textsAgree_iff, hSpans, windowWords_of_segments hSegments]
  exact (textsAgree_iff.mp h).frame hTexts

theorem spansOf_of_other {id : UUID} {q : LessonTranscriptChunk}
    (hFind : e.content.parents.find id = some q) (hOther : q.lessonId ≠ lessonId) :
    spansOf lessonId e.content q.id = none := by
  refine spansOf_of_lessonAt_ne ?_
  rw [lessonAt_of_find hFind]
  exact fun hSome => hOther (Option.some.inj hSome)

theorem spansOf_of_fresh {id : UUID} (h : e.content.parents.find id = none) :
    spansOf lessonId e.content id = none := by
  refine spansOf_of_lessonAt_ne ?_
  rw [lessonAt, h]
  simp

/-- The two saves after a transaction that has given `i` and `j` new bounds. -/
theorem TextsAgree.saves {i j : UUID} {a b c d : ℚ} (hij : i ≠ j)
    (hSpans : spansOf lessonId e'.content =
      ((spansOf lessonId e.content).set i (some (a, b))).set j (some (c, d)))
    (hSegments : e'.segments = e.segments)
    (hTexts : e'.chunkTranscripts =
      saveIf (saveIf e.chunkTranscripts i (buildChunkTranscript (segmentsOf lessonId e) a b)) j
        (buildChunkTranscript (segmentsOf lessonId e) c d))
    (hi : Overwrites e i (buildChunkTranscript (segmentsOf lessonId e) a b))
    (hj : Overwrites e j (buildChunkTranscript (segmentsOf lessonId e) c d))
    (h : TextsAgree lessonId e) : TextsAgree lessonId e' := by
  rw [textsAgree_iff, hSpans, hTexts, windowWords_of_segments (congrFun hSegments lessonId)]
  refine ((textsAgree_iff.mp h).save rfl hi).save rfl fun hEmpty => ?_
  rw [saveIf_of_ne _ hij.symm]
  exact hj hEmpty

end TextsAgree

section Requests

/-- The request leaves the chunks of the lesson with the words of their segments: no text is empty
in place of one that is stored, a `Merge` finds nothing said between its two chunks, and the chunks
that an `UpdateSegment` does not list keep their words. -/
def Request.KeepsTexts (d : Editor) (lessonId : UUID) (e : Shown) (envs : List Env) :
    Request → Prop
  | .split chunkID splitAt => ∀ chunk ∈ chunksOf lessonId e.content, chunk.id = chunkID →
      Overwrites e chunkID
        (buildChunkTranscript (segmentsOf lessonId e) chunk.startSeconds splitAt) ∧
      ∀ env ∈ envs, Overwrites e (env.newId 0)
        (buildChunkTranscript (segmentsOf lessonId e) splitAt chunk.endSeconds)
  | .adjustBoundary prevID nextID newBoundary =>
      ∀ prev ∈ chunksOf lessonId e.content, prev.id = prevID →
      ∀ next ∈ chunksOf lessonId e.content, next.id = nextID →
      Overwrites e prevID
        (buildChunkTranscript (segmentsOf lessonId e) prev.startSeconds newBoundary) ∧
      Overwrites e nextID
        (buildChunkTranscript (segmentsOf lessonId e) newBoundary next.endSeconds)
  | .merge keepID discardID =>
      ∀ keep ∈ chunksOf lessonId e.content, keep.id = keepID →
      ∀ discard ∈ chunksOf lessonId e.content, discard.id = discardID →
      windowWords lessonId e (min keep.startSeconds discard.startSeconds)
          (max keep.endSeconds discard.endSeconds) =
        if keep.orderIndex < discard.orderIndex then
          windowWords lessonId e keep.startSeconds keep.endSeconds ++
            windowWords lessonId e discard.startSeconds discard.endSeconds
        else windowWords lessonId e discard.startSeconds discard.endSeconds ++
          windowWords lessonId e keep.startSeconds keep.endSeconds
  | .delete _ => True
  | .updateSegment lesson segmentIndex text => lesson = lessonId →
      ∀ q ∈ chunksOf lessonId e.content,
        let edited := buildChunkTranscript
          (editedSegments segmentIndex text (segmentsOf lessonId e)) q.startSeconds q.endSeconds
        if q ∈ (Lessons.listLessonTranscriptChunks lessonId d.lessonOpsLimit e.content).val then
          Overwrites e q.id edited
        else fields edited = windowWords lessonId e q.startSeconds q.endSeconds

variable {G : Env → Prop} {d : Editor} {lessonId : UUID} {e e' : Shown} {envs : List Env}

instance (d : Editor) (lessonId : UUID) (e : Shown) (envs : List Env) (r : Request) :
    Decidable (r.KeepsTexts d lessonId e envs) := by
  cases r <;> dsimp only [Request.KeepsTexts] <;> infer_instance

theorem IsSplit.agree {chunkID : UUID} {splitAt : ℚ} {chunk row : LessonTranscriptChunk}
    (h : IsSplit (· ∈ envs) chunkID splitAt chunk row e e')
    (hKeeps : (Request.split chunkID splitAt).KeepsTexts d lessonId e envs)
    (hAgree : TextsAgree lessonId e) : TextsAgree lessonId e' := by
  have hSpans : spansOf lessonId (splitContent chunk row splitAt e.content) = _ :=
    spansOf_splitContent h.found h.fresh h.bounds
  have hId : chunk.id = chunkID := Table.find_key h.found
  have hNe : chunk.id ≠ row.id := by
    intro hEq
    have hFound := h.found
    rw [← hId, hEq, h.fresh] at hFound
    cases hFound
  rw [← h.content] at hSpans
  by_cases hLesson : chunk.lessonId = lessonId
  · obtain ⟨hFirst, hRest⟩ := hKeeps chunk (mem_of_find h.found hLesson) hId
    obtain ⟨env, hEnv, hNew⟩ := h.newId
    rw [if_pos hLesson] at hSpans
    refine hAgree.saves hNe hSpans h.segments ?_ (hId ▸ hFirst) (hNew ▸ hRest env hEnv)
    rw [h.chunkTranscripts, splitTexts, hLesson]
    rfl
  · rw [if_neg hLesson] at hSpans
    refine hAgree.frame hSpans (congrFun h.segments lessonId) fun id hSpan => ?_
    have hChunk : id ≠ chunk.id := fun hEq =>
      hSpan (hEq ▸ spansOf_of_other h.found hLesson)
    have hRow : id ≠ row.id := fun hEq => hSpan (hEq ▸ spansOf_of_fresh h.fresh)
    rw [h.chunkTranscripts, splitTexts, saveIf_of_ne _ hRow, saveIf_of_ne _ hChunk]

theorem IsAdjustment.agree {prevID nextID : UUID} {b : ℚ} {prev next : LessonTranscriptChunk}
    (h : IsAdjustment prevID nextID b prev next e e')
    (hKeeps : (Request.adjustBoundary prevID nextID b).KeepsTexts d lessonId e envs)
    (hAgree : TextsAgree lessonId e) : TextsAgree lessonId e' := by
  have hSpans : spansOf lessonId (adjustContent prev next b e.content) = _ :=
    spansOf_adjustContent b h.foundPrev h.foundNext h.sameLesson
  have hPrevId : prev.id = prevID := Table.find_key h.foundPrev
  have hNextId : next.id = nextID := Table.find_key h.foundNext
  have hNe : prev.id ≠ next.id := by
    intro hEq
    have hFind := h.foundPrev
    rw [← hPrevId, hEq, hNextId, h.foundNext] at hFind
    cases hFind
    exact absurd h.adjacent (by omega)
  rw [← h.content] at hSpans
  by_cases hLesson : prev.lessonId = lessonId
  · obtain ⟨hFirst, hSecond⟩ := hKeeps prev (mem_of_find h.foundPrev hLesson) hPrevId next
      (mem_of_find h.foundNext (h.sameLesson ▸ hLesson)) hNextId
    rw [if_pos hLesson] at hSpans
    refine hAgree.saves hNe hSpans h.segments ?_ (hPrevId ▸ hFirst) (hNextId ▸ hSecond)
    rw [h.chunkTranscripts, adjustTexts, hLesson]
    rfl
  · rw [if_neg hLesson] at hSpans
    refine hAgree.frame hSpans (congrFun h.segments lessonId) fun id hSpan => ?_
    have hPrev : id ≠ prev.id := fun hEq =>
      hSpan (hEq ▸ spansOf_of_other h.foundPrev hLesson)
    have hNext : id ≠ next.id := fun hEq =>
      hSpan (hEq ▸ spansOf_of_other h.foundNext (h.sameLesson ▸ hLesson))
    rw [h.chunkTranscripts, adjustTexts, saveIf_of_ne _ hNext, saveIf_of_ne _ hPrev]

theorem fields_mergedText (keep discard : LessonTranscriptChunk) (e : Shown) :
    fields (mergedText keep discard e) = if keep.orderIndex < discard.orderIndex then
      storedWords e keep.id ++ storedWords e discard.id
    else storedWords e discard.id ++ storedWords e keep.id := by
  unfold mergedText storedText storedWords
  split <;> rw [fields_lines, fields_trimSpace, fields_trimSpace]

theorem IsMerge.agree {keepID discardID : UUID} {keep discard : LessonTranscriptChunk}
    (h : IsMerge keepID discardID keep discard e e')
    (hKeeps : (Request.merge keepID discardID).KeepsTexts d lessonId e envs)
    (hAgree : TextsAgree lessonId e) : TextsAgree lessonId e' := by
  have hSpans : spansOf lessonId (mergeContent keep discard e.content) = _ :=
    spansOf_mergeContent h.foundKeep h.foundDiscard h.different h.sameLesson
  have hKeepId : keep.id = keepID := Table.find_key h.foundKeep
  have hDiscardId : discard.id = discardID := Table.find_key h.foundDiscard
  have hNe : keep.id ≠ discard.id := by
    rw [hKeepId, hDiscardId]
    exact h.different
  rw [← h.content] at hSpans
  by_cases hLesson : keep.lessonId = lessonId
  · have hKeep := mem_of_find h.foundKeep hLesson
    have hDiscard := mem_of_find h.foundDiscard (h.sameLesson ▸ hLesson)
    have hWindow := hKeeps keep hKeep hKeepId discard hDiscard hDiscardId
    have hText : fields (mergedText keep discard e) = windowWords lessonId e
        (min keep.startSeconds discard.startSeconds) (max keep.endSeconds discard.endSeconds) := by
      rw [fields_mergedText, hAgree keep hKeep, hAgree discard hDiscard, hWindow]
    rw [if_pos hLesson] at hSpans
    rw [textsAgree_iff, hSpans, windowWords_of_segments (congrFun h.segments lessonId),
      h.chunkTranscripts, Function.update_comm hNe]
    exact (textsAgree_iff.mp hAgree).erase.put hText
  · rw [if_neg hLesson] at hSpans
    refine hAgree.frame hSpans (congrFun h.segments lessonId) fun id hSpan => ?_
    have hKeep : id ≠ keep.id := fun hEq =>
      hSpan (hEq ▸ spansOf_of_other h.foundKeep hLesson)
    have hDiscard : id ≠ discard.id := fun hEq =>
      hSpan (hEq ▸ spansOf_of_other h.foundDiscard (h.sameLesson ▸ hLesson))
    rw [h.chunkTranscripts, Function.update_of_ne hDiscard, Function.update_of_ne hKeep]

theorem IsDeletion.agree {chunkID : UUID} {chunk : LessonTranscriptChunk}
    (h : IsDeletion chunkID chunk e e') (hAgree : TextsAgree lessonId e) :
    TextsAgree lessonId e' := by
  have hSpans : spansOf lessonId e'.content = (spansOf lessonId e.content).set chunk.id none := by
    rw [h.content, deleteContent, spansOf_reorder, spansOf_removeContent]
  rw [textsAgree_iff, hSpans, windowWords_of_segments (congrFun h.segments lessonId),
    h.chunkTranscripts]
  exact (textsAgree_iff.mp hAgree).erase

theorem mem_listed {lesson : UUID} {limit : Nat} {c : Content} {q : LessonTranscriptChunk}
    (h : q ∈ (Lessons.listLessonTranscriptChunks lesson limit c).val) : q ∈ chunksOf lesson c :=
  (List.perm_insertionSort _ _).mem_iff.mp (List.mem_of_mem_take h)

theorem IsSegmentUpdate.agree {lesson : UUID} {segmentIndex : Int} {text : String}
    {segs : List Segment}
    (h : IsSegmentUpdate d.lessonOpsLimit lesson segmentIndex text segs e e')
    (hKeeps : (Request.updateSegment lesson segmentIndex text).KeepsTexts d lessonId e envs)
    (hAgree : TextsAgree lessonId e) : TextsAgree lessonId e' := by
  have hListed := (Lessons.listLessonTranscriptChunks lesson d.lessonOpsLimit e.content).property
  by_cases hLesson : lesson = lessonId
  · subst hLesson
    intro q hq
    rw [h.content] at hq
    have hSegments : segmentsOf lesson e' =
        editedSegments segmentIndex text (segmentsOf lesson e) := by
      rw [segmentsOf, h.segments, Function.update_self, h.loaded]
      rfl
    have hChunk := hKeeps rfl q hq
    rw [windowWords, hSegments, storedWords, h.chunkTranscripts, rebuiltTexts, h.loaded]
    dsimp only at hChunk
    split at hChunk
    · next hIn =>
      rw [saveAll_of_mem hListed hIn]
      split
      · rfl
      · next hEmpty =>
        have hNone := not_not.mp hEmpty
        exact (hChunk hNone).trans (by rw [segmentsOf, hNone, fields_empty])
    · next hNotIn =>
      have hNot : q.id ∉ (Lessons.listLessonTranscriptChunks lesson d.lessonOpsLimit
          e.content).val.map (·.id) := by
        intro hIn
        obtain ⟨q', hq', hId⟩ := List.mem_map.mp hIn
        exact hNotIn (eq_of_id (mem_listed hq') hq hId ▸ hq')
      rw [saveAll_of_not_mem hNot, hChunk]
      exact hAgree q hq
  · have hSegments : e'.segments lessonId = e.segments lessonId := by
      rw [h.segments, Function.update_of_ne (Ne.symm hLesson)]
    refine hAgree.frame (by rw [h.content]) hSegments fun id hSpan => ?_
    rw [h.chunkTranscripts]
    refine saveAll_of_not_mem fun hIn => ?_
    obtain ⟨q, hq, rfl⟩ := List.mem_map.mp hIn
    obtain ⟨hFind, hOf⟩ := mem_chunksOf.mp (mem_listed hq)
    exact hSpan (spansOf_of_other hFind (hOf ▸ hLesson))

end Requests

section Chunking

variable {lessonId : UUID} {e e' : Shown}

/-- The new chunks take the place of the lesson's old ones. -/
theorem saveChunks_spec {lesson : Bool} {lessonID : UUID} {limit : Nat}
    {chunks : List ChunkProposal} {newId : Nat → UUID} {c c' : Content} {saved : SavedChunks}
    (h : Lessons.saveChunks lesson lessonID limit chunks newId c = .ok (saved, c')) :
    saved.chunks = Lessons.newChunks lessonID newId chunks ∧
      saved.staleChunkIDs =
        (Lessons.listLessonTranscriptChunks lessonID limit c).val.map (·.id) ∧
      c'.parents.rows = (c.parents.rows.filter fun q => q.lessonId ≠ lessonID) ++ saved.chunks := by
  unfold Lessons.saveChunks at h
  dsimp only at h
  split at h
  · cases h
  · next content hInsert =>
    cases h
    split at hInsert
    · refine ⟨rfl, rfl, (ForeignKey.insertParents_spec hInsert).1.trans ?_⟩
      refine congrArg (· ++ _) (List.filter_congr fun q _ => ?_)
      simp
    · cases hInsert

theorem lessonId_of_mem_newChunks {lessonID : UUID} {newId : Nat → UUID}
    {chunks : List ChunkProposal} {q : LessonTranscriptChunk}
    (h : q ∈ Lessons.newChunks lessonID newId chunks) : q.lessonId = lessonID ∧
      ∃ ch ∈ chunks, q.startSeconds = ch.startSeconds ∧ q.endSeconds = ch.endSeconds := by
  obtain ⟨i, hi, rfl⟩ := List.mem_mapIdx.mp h
  exact ⟨rfl, chunks[i], List.getElem_mem hi, rfl, rfl⟩

/-- Each proposed chunk holds a segment with text. -/
def EachHasText (segs : List Segment) : Except Fail (List ChunkProposal) → Prop
  | .ok chunks => ∀ ch ∈ chunks, buildChunkTranscript segs ch.startSeconds ch.endSeconds ≠ ""
  | .error _ => True

instance (segs : List Segment) (proposals : Except Fail (List ChunkProposal)) :
    Decidable (EachHasText segs proposals) := by
  cases proposals <;> dsimp only [EachHasText] <;> infer_instance

section

variable {limit : Nat} {lessonID : UUID} {text : String} {chunks : List ChunkProposal}
  {saved : SavedChunks}

theorem IsChunking.spec (h : IsChunking limit lessonID text chunks saved e e') :
    ∃ newId, saved.chunks = Lessons.newChunks lessonID newId chunks ∧
      saved.staleChunkIDs =
        (Lessons.listLessonTranscriptChunks lessonID limit e.content).val.map (·.id) ∧
      e'.content.parents.rows =
        (e.content.parents.rows.filter fun q => q.lessonId ≠ lessonID) ++ saved.chunks := by
  obtain ⟨lesson, newId, hInserted⟩ := h.inserted
  exact ⟨newId, saveChunks_spec hInserted⟩

/-- The ids of the new chunks differ from each other and from those of other lessons. -/
theorem IsChunking.nodup (h : IsChunking limit lessonID text chunks saved e e') :
    (saved.chunks.map (·.id)).Nodup ∧
      ∀ q ∈ e.content.parents.rows, q.lessonId ≠ lessonID → q.id ∉ saved.chunks.map (·.id) := by
  obtain ⟨_, _, _, hRows⟩ := h.spec
  have hNodup := e'.content.parents.nodup
  rw [hRows, List.map_append] at hNodup
  obtain ⟨_, hNew, hApart⟩ := List.nodup_append.mp hNodup
  refine ⟨hNew, fun q hq hOther hIn => ?_⟩
  have hKept : q ∈ e.content.parents.rows.filter fun q => q.lessonId ≠ lessonID :=
    List.mem_filter.mpr ⟨hq, by simpa using hOther⟩
  exact hApart q.id (List.mem_map_of_mem hKept) q.id hIn rfl

theorem IsChunking.chunksOf (h : IsChunking limit lessonID text chunks saved e e') :
    Lessons.chunksOf lessonId e'.content =
      if lessonID = lessonId then saved.chunks else Lessons.chunksOf lessonId e.content := by
  obtain ⟨newId, hNew, _, hRows⟩ := h.spec
  have hOf : ∀ q ∈ saved.chunks, q.lessonId = lessonID := fun q hq =>
    (lessonId_of_mem_newChunks (hNew ▸ hq)).1
  unfold Lessons.chunksOf
  rw [hRows, List.filter_append, List.filter_filter]
  split
  · next hLesson =>
    have hOld : e.content.parents.rows.filter (fun q =>
        decide (q.lessonId = lessonId) && decide (q.lessonId ≠ lessonID)) = [] := by
      refine List.filter_eq_nil_iff.mpr fun q _ => ?_
      simp [hLesson]
    have hAll : saved.chunks.filter (fun q => q.lessonId = lessonId) = saved.chunks :=
      List.filter_eq_self.mpr fun q hq => by simp [hOf q hq, hLesson]
    rw [hOld, hAll, List.nil_append]
  · next hLesson =>
    have hNone : saved.chunks.filter (fun q => q.lessonId = lessonId) = [] :=
      List.filter_eq_nil_iff.mpr fun q hq => by simpa [hOf q hq] using hLesson
    rw [hNone, List.append_nil]
    refine List.filter_congr fun q _ => ?_
    by_cases hIs : q.lessonId = lessonId
    · simp [hIs, Ne.symm hLesson]
    · simp [hIs]

/-- The lesson whose chunks are new. -/
theorem IsChunking.agree_self (h : IsChunking limit lessonID text chunks saved e e')
    (hText : EachHasText (segmentsOf lessonID e) (.ok chunks)) : TextsAgree lessonID e' := by
  intro q hq
  rw [h.chunksOf, if_pos rfl] at hq
  obtain ⟨newId, hNew, _, _⟩ := h.spec
  obtain ⟨_, ch, hCh, hStart, hEnd⟩ := lessonId_of_mem_newChunks (hNew ▸ hq)
  have hWords : buildChunkTranscript (segmentsOf lessonID e) q.startSeconds q.endSeconds ≠ "" := by
    rw [hStart, hEnd]
    exact hText ch hCh
  have hChunkText : chunkTranscript text (segmentsOf lessonID e) q =
      buildChunkTranscript (segmentsOf lessonID e) q.startSeconds q.endSeconds := if_neg hWords
  have hTexts : e'.chunkTranscripts = saveAll (chunkTranscript text (segmentsOf lessonID e))
      saved.chunks (clearAll saved.staleChunkIDs e.chunkTranscripts) := h.chunkTranscripts
  rw [windowWords_of_segments (congrFun h.segments lessonID), storedWords, hTexts,
    fields_saveAll h.nodup.1 hq (by rwa [hChunkText]), hChunkText, windowWords]

/-- A lesson whose chunks stay. -/
theorem IsChunking.agree_other (h : IsChunking limit lessonID text chunks saved e e')
    (hLesson : lessonID ≠ lessonId) (hAgree : TextsAgree lessonId e) : TextsAgree lessonId e' := by
  have hChunks : Lessons.chunksOf lessonId e'.content = _ := h.chunksOf
  rw [if_neg hLesson] at hChunks
  have hSpans : spansOf lessonId e'.content = spansOf lessonId e.content :=
    spansOf_of_map (f := id) (by rw [hChunks, List.map_id]) fun q => ⟨rfl, rfl, rfl⟩
  refine hAgree.frame hSpans (congrFun h.segments lessonId) fun id hSpan => ?_
  obtain ⟨⟨a, b⟩, hSome⟩ := Option.ne_none_iff_exists'.mp hSpan
  obtain ⟨q, hq, rfl, _, _⟩ := spansOf_eq_some.mp hSome
  obtain ⟨hFind, hOf⟩ := mem_chunksOf.mp hq
  have hNotSaved : q.id ∉ saved.chunks.map (·.id) :=
    h.nodup.2 q (List.mem_filter.mp hq).1 (hOf ▸ Ne.symm hLesson)
  have hNotStale : q.id ∉ saved.staleChunkIDs := by
    intro hIn
    obtain ⟨_, _, hStale, _⟩ := h.spec
    rw [hStale] at hIn
    obtain ⟨q', hq', hId⟩ := List.mem_map.mp hIn
    obtain ⟨hFind', hOf'⟩ := mem_chunksOf.mp (mem_listed hq')
    rw [hId, hFind] at hFind'
    cases hFind'
    exact hLesson (hOf'.symm.trans hOf)
  rw [h.chunkTranscripts, saveAll_of_not_mem hNotSaved, clearAll_of_not_mem hNotStale]

end

end Chunking

section Runs

/-- A request of the editor, or the chunk stage of the pipeline. -/
inductive Operation
  | edit (r : Request)
  | runChunk (env : TaskEnv) (lessonID : UUID)

/-- The chunks of the lessons are made and edited by one operation after another. -/
def authoring (d : Editor) (cfg : AiCfg) : Machine Lessons.Store (Operation × List Env) where
  step s a :=
    match a.1 with
    | .edit r => (editing d).step s (r, a.2)
    | .runChunk env lessonID =>
        match (Lessons.runChunk cfg env lessonID).run.run (Lessons.exec 0) a.2
          { s with cancelled := fun _ => false } with
        | some (.ok _, t) => some t
        | _ => none

/-- As for the requests; the proposals of `RunChunk` must hold segments with text. -/
def Operation.KeepsTexts (d : Editor) (lessonId : UUID) (e : Shown) (envs : List Env) :
    Operation → Prop
  | .edit r => r.KeepsTexts d lessonId e envs
  | .runChunk _ lessonID => lessonID = lessonId → ∀ env ∈ envs,
      EachHasText (segmentsOf lessonId e) env.proposals

instance (d : Editor) (lessonId : UUID) (e : Shown) (envs : List Env) (o : Operation) :
    Decidable (o.KeepsTexts d lessonId e envs) := by
  cases o <;> dsimp only [Operation.KeepsTexts] <;> infer_instance

instance (env : Env) : Decidable (Calm env) :=
  decidable_of_iff (env.kvFails = false ∧ env.failure = none ∧ env.cancel = false)
    ⟨fun h => ⟨h.1, h.2.1, h.2.2⟩, fun h => ⟨h.kvFails, h.failure, h.cancel⟩⟩

variable {d : Editor} {cfg : AiCfg} {lessonId : UUID} {s s' : Lessons.Store} {envs : List Env}

theorem agree_edit {r : Request} (h : (editing d).step s (r, envs) = some s')
    (hCalm : ∀ env ∈ envs, Calm env) (hKeeps : r.KeepsTexts d lessonId (shown s) envs)
    (hAgree : TextsAgree lessonId (shown s)) : TextsAgree lessonId (shown s') := by
  obtain ⟨e', hEffect, _, hShown⟩ := editing_step (· ∈ envs) (fun _ => id) h
  rw [hShown hCalm]
  cases r with
  | split chunkID splitAt =>
    obtain ⟨chunk, row, hSplit⟩ := hEffect
    exact hSplit.agree hKeeps hAgree
  | adjustBoundary prevID nextID newBoundary =>
    obtain ⟨prev, next, hAdjustment⟩ := hEffect
    exact hAdjustment.agree hKeeps hAgree
  | merge keepID discardID =>
    obtain ⟨keep, discard, hMerge⟩ := hEffect
    exact hMerge.agree hKeeps hAgree
  | delete chunkID =>
    obtain ⟨chunk, hDeletion⟩ := hEffect
    exact hDeletion.agree hAgree
  | updateSegment lesson segmentIndex text =>
    obtain ⟨segs, hUpdate⟩ := hEffect.2 hCalm
    exact hUpdate.agree hKeeps hAgree

theorem agree_runChunk {env : TaskEnv} {lessonID : UUID}
    (h : (authoring d cfg).step s (.runChunk env lessonID, envs) = some s')
    (hCalm : ∀ env ∈ envs, Calm env)
    (hKeeps : (Operation.runChunk env lessonID).KeepsTexts d lessonId (shown s) envs)
    (hAgree : TextsAgree lessonId (shown s)) : TextsAgree lessonId (shown s') := by
  simp only [authoring] at h
  split at h
  · next t hRun =>
    cases h
    have hStart : At (shown s) { s with cancelled := fun _ => false } := ⟨rfl, rfl⟩
    obtain ⟨w, text, chunks, saved, e', hw, hProposals, hChunking, hShown, _⟩ :=
      Prog.Ensures.of_run (fun w hw o s r t hExec => ⟨w, hw, hExec⟩)
        (does_runChunk (G := (· ∈ envs)) hCalm cfg env lessonID hStart) hRun
    rw [hShown]
    by_cases hLesson : lessonID = lessonId
    · have hText := hKeeps hLesson w hw
      rw [hProposals] at hText
      subst hLesson
      exact hChunking.agree_self hText
    · exact hChunking.agree_other hLesson hAgree
  · cases h

/-- Operations that keep the texts leave every chunk of the lesson with the words of its
segments. -/
theorem texts_agree_while_kept (d : Editor) (cfg : AiCfg) (lessonId : UUID) (s : Lessons.Store)
    (hAgree : TextsAgree lessonId (shown s)) (as : List (Operation × List Env))
    (s' : Lessons.Store)
    (hRun : (authoring d cfg).Runs (fun s a => (∀ env ∈ a.2, Calm env) ∧
      a.1.KeepsTexts d lessonId (shown s) a.2) s as s') : TextsAgree lessonId (shown s') := by
  refine hRun.invariant (I := fun s => TextsAgree lessonId (shown s)) ?_ hAgree
  rintro s ⟨operation, envs⟩ t ⟨hCalm, hKeeps⟩ hStep hAgree
  cases operation with
  | edit r => exact agree_edit hStep hCalm hKeeps hAgree
  | runChunk env lessonID => exact agree_runChunk hStep hCalm hKeeps hAgree

/-- A lesson with a transcript of three segments, and no chunks yet. -/
def transcribed : Lessons.Store :=
  { lectureWith .empty [⟨0, 4, "so today"⟩, ⟨5, 8, "limits"⟩, ⟨12, 15, "a proof"⟩]
      fun _ => none with
    transcripts := fun _ => some "so today limits a proof" }

def chunkTask : TaskEnv := ⟨50, "chunk", 7, none, none, ""⟩

/-- The model proposes the given chunks, which get the ids 30 and 31. -/
def proposing (chunks : List ChunkProposal) : Operation × List Env :=
  (.runChunk chunkTask 10, List.replicate 10
    { newId := fun i => 30 + i, proposals := .ok chunks })

/-- Two chunks are made; the first one is split, the boundary between its parts moves, a segment
gets other words, the parts are merged again, and the last chunk is deleted. -/
def fiveEdits : List (Operation × List Env) :=
  [proposing [⟨0, 10, "intro"⟩, ⟨10, 20, "proof"⟩], (.edit (.split 30 5), List.replicate 15 calm),
    (.edit (.adjustBoundary 30 32 4), List.replicate 11 calm),
    (.edit (.updateSegment 10 0 "today again"), List.replicate 7 calm),
    (.edit (.merge 30 32), List.replicate 14 calm), (.edit (.delete 31), List.replicate 8 calm)]

/-- Everyone is a teacher, and the lists are long enough. -/
def anyEditor : Editor := ⟨fun _ => .ok (), 100, 100⟩

def anyCfg : AiCfg := ⟨100, 100, 100, 100, 0, fun c => c⟩

theorem texts_agree_while_kept_fiveEdits :
    ∃ s', (authoring anyEditor anyCfg).run transcribed fiveEdits = some s' ∧
      TextsAgree 10 (shown s') := by
  have hSome : (((authoring anyEditor anyCfg).restrict fun s a => (∀ env ∈ a.2, Calm env) ∧
      a.1.KeepsTexts anyEditor 10 (shown s) a.2).run transcribed fiveEdits).isSome = true := by
    decide +kernel
  obtain ⟨s', hRun⟩ := Option.isSome_iff_exists.mp hSome
  have hRuns := Machine.Runs.of_restrict hRun
  exact ⟨s', hRuns.run,
    texts_agree_while_kept anyEditor anyCfg 10 transcribed (by decide) fiveEdits s' hRuns⟩

/-- A proposed chunk without a segment is stored with the whole transcript. -/
theorem runChunk_stores_whole_transcript : ¬ ∀ (as : List (Operation × List Env))
    (s' : Lessons.Store), (authoring anyEditor anyCfg).Runs (fun _ a => ∀ env ∈ a.2, Calm env)
      transcribed as s' → TextsAgree 10 (shown s') := by
  intro h
  have hSome : (((authoring anyEditor anyCfg).restrict fun _ a => ∀ env ∈ a.2, Calm env).run
      transcribed [proposing [⟨0, 20, "intro"⟩, ⟨20, 30, "proof"⟩]]).any
        (fun s => !decide (TextsAgree 10 (shown s))) = true := by
    decide +kernel
  obtain ⟨s', hRun, hNot⟩ := (Option.any_eq_true _ _).mp hSome
  have hAgree := h _ s' (Machine.Runs.of_restrict hRun)
  simp [hAgree] at hNot

end Runs

end Richter.Chunkops
