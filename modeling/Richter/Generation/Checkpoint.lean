import Mathlib.Tactic.Linarith
import Richter.Courses.Content

/-! Where the questions of a chunk stop the video: the place that the generation gives them
(`CheckpointSecondsForChunk`, `internal/svc/ai/generation/helpers.go`), and the one that a lesson's
reader gives to those that have none (`normalizeGeneratedInteractionStartSeconds`,
`internal/svc/ai/ai.go`).  Seconds are exact rationals. -/

namespace Richter.Generation

open Courses (LessonTranscriptChunk normalizeGeneratedInteractionStartSeconds)
open Interactions (LessonInteractionRow)

def checkpointEndSafetySeconds : ℚ := 2

def checkpointSecondsForChunk (chunk : LessonTranscriptChunk) : ℚ :=
  if 0 < chunk.endSeconds then
    if chunk.startSeconds < chunk.endSeconds - checkpointEndSafetySeconds then
      chunk.endSeconds - checkpointEndSafetySeconds
    else if chunk.startSeconds < chunk.endSeconds then
      chunk.startSeconds + (chunk.endSeconds - chunk.startSeconds) / 2
    else chunk.endSeconds
  else if 0 < chunk.startSeconds then chunk.startSeconds
  else 0

/-- The playback comes across `s` in the chunk, before its end. -/
def Inside (chunk : LessonTranscriptChunk) (s : ℚ) : Prop :=
  chunk.startSeconds < s ∧ s < chunk.endSeconds

theorem checkpoint_inside {chunk : LessonTranscriptChunk} (hStart : 0 ≤ chunk.startSeconds)
    (hSpan : chunk.startSeconds < chunk.endSeconds) :
    Inside chunk (checkpointSecondsForChunk chunk) := by
  unfold checkpointSecondsForChunk checkpointEndSafetySeconds
  rw [if_pos (lt_of_le_of_lt hStart hSpan), if_pos hSpan]
  split
  · next hSafe => exact ⟨hSafe, by linarith⟩
  · constructor <;> linarith

/-- What a reader of the lesson gets for one interaction. -/
def normalizeStart (chunks : List LessonTranscriptChunk) (i : LessonInteractionRow) :
    LessonInteractionRow :=
  if i.generatedBy ≠ "ai" ∨ 0 < i.startSeconds then i
  else
    match i.chunkId.bind fun id => chunks.find? fun c => 0 < c.endSeconds ∧ c.id = id with
    | some c => { i with startSeconds := c.endSeconds }
    | none => i

theorem normalize_eq_map (ints : List LessonInteractionRow) (chunks : List LessonTranscriptChunk) :
    normalizeGeneratedInteractionStartSeconds ints chunks = ints.map (normalizeStart chunks) := rfl

section Seen

variable {chunks : List LessonTranscriptChunk} {chunk : LessonTranscriptChunk}
  {i : LessonInteractionRow}

theorem normalizeStart_timed (h : 0 < i.startSeconds) : normalizeStart chunks i = i := by
  rw [normalizeStart, if_pos (.inr h)]

/-- An interaction without a time of its own gets the end of its chunk, or stays without one. -/
theorem normalizeStart_untimed (hKey : ∀ c ∈ chunks, c.id = chunk.id → c = chunk)
    (hChunk : i.chunkId = some chunk.id) (hNone : i.startSeconds ≤ 0) :
    (normalizeStart chunks i).startSeconds = chunk.endSeconds ∨
      (normalizeStart chunks i).startSeconds ≤ 0 := by
  unfold normalizeStart
  split
  · exact .inr hNone
  · rw [hChunk, Option.bind_some]
    cases hFind : chunks.find? fun c => 0 < c.endSeconds ∧ c.id = chunk.id with
    | none => exact .inr hNone
    | some c =>
      have hFound := List.find?_some hFind
      rw [decide_eq_true_eq] at hFound
      rw [hKey c (List.mem_of_find?_eq_some hFind) hFound.2]
      exact .inl rfl

/-- A question that was generated for a chunk is seen inside it just when it has a time of its
own. -/
theorem seen_inside_iff {ints : List LessonInteractionRow} {k : Nat}
    (hStart : 0 ≤ chunk.startSeconds) (hSpan : chunk.startSeconds < chunk.endSeconds)
    (hKey : ∀ c ∈ chunks, c.id = chunk.id → c = chunk) (hi : ints[k]? = some i)
    (hChunk : i.chunkId = some chunk.id)
    (hStored : i.startSeconds = checkpointSecondsForChunk chunk ∨ i.startSeconds ≤ 0) :
    Inside chunk (checkpointSecondsForChunk chunk) ∧
    ∃ j, (normalizeGeneratedInteractionStartSeconds ints chunks)[k]? = some j ∧
      (Inside chunk j.startSeconds ↔ 0 < i.startSeconds) := by
  have hInside := checkpoint_inside hStart hSpan
  refine ⟨hInside, normalizeStart chunks i, ?_, ?_⟩
  · rw [normalize_eq_map, List.getElem?_map, hi, Option.map_some]
  · by_cases hTimed : 0 < i.startSeconds
    · have hCheckpoint : i.startSeconds = checkpointSecondsForChunk chunk :=
        hStored.resolve_right (not_le.mpr hTimed)
      rw [normalizeStart_timed hTimed, hCheckpoint]
      exact iff_of_true hInside (hCheckpoint ▸ hTimed)
    · refine iff_of_false (fun hSeen => ?_) hTimed
      rcases normalizeStart_untimed hKey hChunk (not_lt.mp hTimed) with hEnd | hNone
      · exact absurd hSeen.2 (by rw [hEnd]; exact lt_irrefl _)
      · exact absurd hSeen.1 (not_lt.mpr (hNone.trans hStart))

end Seen

/-- A chunk of 45 seconds. -/
def chunkOf45 : LessonTranscriptChunk where
  id := 1
  lessonId := 2
  orderIndex := 0
  startSeconds := 0
  endSeconds := 45
  summary := "Intro"
  questionCountConfig := 1
  interactionConfig := none

/-- A generated question of the chunk, stored with a start. -/
def questionAt (startSeconds : ℚ) : LessonInteractionRow where
  id := 3
  lessonId := 2
  chunkId := some 1
  kind := "single_choice"
  startSeconds := startSeconds
  orderIndex := 0
  prompt := ""
  explanation := ""
  config := .null
  maxScore := 1
  generatedBy := "ai"
  createdAt := none

theorem seen_inside_of_checkpoint :
    ∃ j, (normalizeGeneratedInteractionStartSeconds [questionAt 43] [chunkOf45])[0]? = some j ∧
      Inside chunkOf45 j.startSeconds := by
  obtain ⟨-, j, hj, hSeen⟩ := @seen_inside_iff [chunkOf45] chunkOf45 (questionAt 43)
    [questionAt 43] 0 (by decide +kernel) (by decide +kernel)
    (fun c hc _ => List.mem_singleton.mp hc) rfl rfl (.inl (by decide +kernel))
  exact ⟨j, hj, hSeen.mpr (by decide +kernel)⟩

/-- A question that was stored without a time is seen at the very end of its chunk. -/
theorem seen_at_end :
    ((normalizeGeneratedInteractionStartSeconds [questionAt 0] [chunkOf45]).map
      (·.startSeconds)) = [45] ∧ ¬ Inside chunkOf45 45 := by
  refine ⟨by decide +kernel, fun h => absurd h.2 ?_⟩
  decide +kernel

end Richter.Generation
