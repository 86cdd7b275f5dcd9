import Mathlib.Algebra.BigOperators.Group.List.Basic
import Mathlib.Algebra.Order.Field.Rat
import Mathlib.Tactic.Linarith
import Richter.Lessons.Generation

/-! The transcription of a long video (`media_transcription.go` of `internal/svc/ai`): its audio is
cut into chunks, which are transcribed one after the other, and the texts and the timestamps of the
chunks are put together. -/

namespace Richter.Generation

open Lib
open Lessons (Segment contains isSpace trimSpace toList_trimSpace)

/-- `wavBytesPerSecond`. -/
def wavBytesPerSecond : ℚ := 16000 * 2

/-- `wavHeaderBytes`. -/
def wavHeaderBytes : Int := 44

/-- `wavDurationSeconds` of a file, by its size where `os.Stat` gives one. -/
def wavDurationSeconds (size : Option Int) : ℚ :=
  match size with
  | none => 0
  | some n =>
    let dataBytes := n - wavHeaderBytes
    if dataBytes ≤ 0 then 0 else dataBytes / wavBytesPerSecond

/-- An error of a request, and whether it is `context.DeadlineExceeded` or a timeout. -/
structure SttError where
  text : String
  timedOut : Bool
  deriving DecidableEq

/-- A chunk of the audio: the size of its file, and what `transcribeChunk` returns for it. -/
structure AudioChunk where
  size : Option Int
  transcribed : Except SttError (String × List Segment)

/-- The message for users of a chunk that is not transcribed. -/
def chunkError (e : SttError) : String :=
  if e.timedOut then "whisper transcription: " ++ e.text
  else if contains e.text "timeout awaiting response headers" then
    "whisper transcription: máy chủ phiên âm không phản hồi (có thể đang bận xử lý tác vụ khác): "
      ++ e.text
  else "whisper transcription: " ++ e.text

/-- A segment of a chunk that starts at `offset`. -/
def shift (offset : ℚ) (seg : Segment) : Segment :=
  { seg with
    startSeconds := seg.startSeconds + offset
    endSeconds := seg.endSeconds + offset }

/-- What the loop over the chunks has put together. -/
structure Stitch where
  textBuf : String := ""
  allSegs : List Segment := []
  offset : ℚ := 0

/-- One round of the loop. -/
def Stitch.chunk (st : Stitch) (c : AudioChunk) : Except String Stitch :=
  match c.transcribed with
  | .error e => .error (chunkError e)
  | .ok (text, segs) =>
    let t := trimSpace text
    .ok {
      textBuf :=
        if t = "" then st.textBuf
        else (if st.textBuf = "" then st.textBuf else st.textBuf ++ " ") ++ t
      allSegs := st.allSegs ++ segs.map (shift st.offset)
      offset := st.offset + wavDurationSeconds c.size }

/-- What the steps before the loop return. -/
structure SttPipeline where
  progress : String → Except String Unit
  downloadVideo : Except String Unit
  mkdirTemp : Except String Unit
  extractAudioSegments : Except String (List AudioChunk)

/-- The error of a video without speech. -/
def emptyTranscript : String :=
  "STT trả về transcript rỗng — video có thể không có lời nói hoặc chất lượng âm thanh quá thấp"

/-- `runSTTAnalyze`. -/
def runSTTAnalyze (p : SttPipeline) : Except String (String × List Segment) := do
  p.progress "Đang tải video từ storage..."
  p.downloadVideo
  p.progress "Đang trích xuất âm thanh..."
  p.mkdirTemp.mapError ("create segment dir: " ++ ·)
  let chunks ← p.extractAudioSegments.mapError ("extract audio: " ++ ·)
  p.progress "Đang phiên âm bằng STT — chờ máy chủ xử lý..."
  let st ← chunks.foldlM Stitch.chunk {}
  let transcript := trimSpace st.textBuf
  if transcript = "" then throw emptyTranscript
  return (transcript, st.allSegs)

/-- A chunk that has been transcribed. -/
structure TranscribedChunk where
  size : Option Int
  text : String
  segments : List Segment

namespace TranscribedChunk

def chunk (c : TranscribedChunk) : AudioChunk := ⟨c.size, .ok (c.text, c.segments)⟩

def duration (c : TranscribedChunk) : ℚ := wavDurationSeconds c.size

/-- The segments lie within the chunk, and their starts do not decrease. -/
structure Timed (c : TranscribedChunk) : Prop where
  within : ∀ seg ∈ c.segments,
    0 ≤ seg.startSeconds ∧ seg.startSeconds ≤ seg.endSeconds ∧ seg.endSeconds ≤ c.duration
  increasing : c.segments.Pairwise fun a b => a.startSeconds ≤ b.startSeconds

end TranscribedChunk

/-- The texts of the chunks that have one. -/
def chunkTexts (cs : List TranscribedChunk) : List String :=
  (cs.map fun c => trimSpace c.text).filter fun t => t ≠ ""

/-- The length of the chunks. -/
def totalDuration (cs : List TranscribedChunk) : ℚ := (cs.map (·.duration)).sum

/-- The segments of all chunks, each shifted by the length of the chunks before its own. -/
def stitchedSegments (cs : List TranscribedChunk) : List Segment :=
  cs.zipIdx.flatMap fun p => p.1.segments.map (shift (totalDuration (cs.take p.2)))

variable {c : TranscribedChunk} {cs : List TranscribedChunk} {p : SttPipeline}

theorem duration_nonneg (c : TranscribedChunk) : 0 ≤ c.duration := by
  unfold TranscribedChunk.duration wavDurationSeconds
  cases c.size with
  | none => exact le_refl _
  | some n =>
    dsimp only
    split
    · exact le_refl _
    · next hData =>
      have hBytes : (0 : ℚ) ≤ (n - wavHeaderBytes : Int) := by
        exact_mod_cast (not_le.mp hData).le
      exact div_nonneg hBytes (by norm_num [wavBytesPerSecond])

/-! ### Segments -/

theorem stitchedSegments_append (cs : List TranscribedChunk) (c : TranscribedChunk) :
    stitchedSegments (cs ++ [c]) =
      stitchedSegments cs ++ c.segments.map (shift (totalDuration cs)) := by
  have hBefore : ∀ q ∈ cs.zipIdx, q.1.segments.map (shift (totalDuration ((cs ++ [c]).take q.2))) =
      q.1.segments.map (shift (totalDuration (cs.take q.2))) := by
    intro q hq
    rw [List.take_append_of_le_length (List.snd_lt_of_mem_zipIdx hq).le]
  unfold stitchedSegments
  rw [List.zipIdx_append, List.flatMap_append, List.flatMap_congr hBefore]
  simp

theorem totalDuration_append (cs : List TranscribedChunk) (c : TranscribedChunk) :
    totalDuration (cs ++ [c]) = totalDuration cs + c.duration := by
  simp [totalDuration]

/-- The starts do not decrease, since all segments so far start before the end of the chunks. -/
theorem stitchedSegments_increasing (h : ∀ c ∈ cs, c.Timed) :
    (stitchedSegments cs).Pairwise (fun a b => a.startSeconds ≤ b.startSeconds) ∧
      ∀ seg ∈ stitchedSegments cs, seg.startSeconds ≤ totalDuration cs := by
  induction cs using List.reverseRecOn with
  | nil => simp [stitchedSegments]
  | append_singleton cs c ih =>
    obtain ⟨hIncreasing, hBefore⟩ := ih fun c hc => h c (List.mem_append_left _ hc)
    have hTimed := h c (List.mem_append_right _ List.mem_cons_self)
    have hDuration := duration_nonneg c
    rw [stitchedSegments_append, totalDuration_append]
    refine ⟨List.pairwise_append.mpr ⟨hIncreasing, ?_, ?_⟩, ?_⟩
    · refine List.pairwise_map.mpr (hTimed.increasing.imp fun hLe => ?_)
      exact add_le_add_left hLe _
    · intro a ha b hb
      obtain ⟨seg, hSeg, rfl⟩ := List.mem_map.mp hb
      have hStart := (hTimed.within seg hSeg).1
      have hEnd := hBefore a ha
      simp only [shift]
      linarith
    · intro seg hSeg
      rcases List.mem_append.mp hSeg with hOld | hNew
      · have := hBefore seg hOld
        linarith
      · obtain ⟨own, hOwn, rfl⟩ := List.mem_map.mp hNew
        obtain ⟨-, hLe, hEnd⟩ := hTimed.within own hOwn
        simp only [shift]
        linarith

/-! ### Texts -/

theorem chunkTexts_append (cs : List TranscribedChunk) (c : TranscribedChunk) :
    chunkTexts (cs ++ [c]) =
      chunkTexts cs ++ if trimSpace c.text = "" then [] else [trimSpace c.text] := by
  unfold chunkTexts
  rw [List.map_append, List.filter_append]
  split
  · next hEmpty => simp [hEmpty]
  · next hText => simp [hText]

/-- Trimmed texts with one space between them are trimmed. -/
theorem trimmed_intercalate {ts : List String} (hSome : ts ≠ [])
    (h : ∀ t ∈ ts, t ≠ "" ∧ Trimmed isSpace t.toList) :
    " ".intercalate ts ≠ "" ∧ Trimmed isSpace (" ".intercalate ts).toList := by
  induction ts with
  | nil => exact absurd rfl hSome
  | cons t ts ih =>
    obtain ⟨ht, hTrimmed⟩ := h t List.mem_cons_self
    by_cases hRest : ts = []
    · subst hRest
      simpa using ⟨ht, hTrimmed⟩
    · obtain ⟨hText, hRestTrimmed⟩ := ih hRest fun u hu => h u (List.mem_cons_of_mem t hu)
      rw [String.intercalate_cons_of_ne_nil hRest, String.toList_append, String.toList_append]
      refine ⟨by simp, hTrimmed.append hRestTrimmed ?_ ?_⟩
      · simpa using ht
      · exact fun hNil => hText (String.toList_eq_nil_iff.mp hNil)

theorem mem_chunkTexts {t : String} (h : t ∈ chunkTexts cs) :
    t ≠ "" ∧ Trimmed isSpace t.toList := by
  obtain ⟨hMem, hText⟩ := List.mem_filter.mp h
  obtain ⟨c, -, rfl⟩ := List.mem_map.mp hMem
  refine ⟨by simpa using hText, ?_⟩
  rw [toList_trimSpace]
  exact trim_trimmed _

/-- The text of all chunks, which the last `TrimSpace` leaves as it is. -/
theorem trimSpace_chunkTexts (cs : List TranscribedChunk) :
    trimSpace (" ".intercalate (chunkTexts cs)) = " ".intercalate (chunkTexts cs) := by
  by_cases hNone : chunkTexts cs = []
  · simp [hNone]
  · obtain ⟨-, hTrimmed⟩ := trimmed_intercalate hNone fun t ht => mem_chunkTexts ht
    rw [← String.toList_inj, toList_trimSpace, hTrimmed.trim_eq]

theorem intercalate_chunkTexts_eq_empty :
    " ".intercalate (chunkTexts cs) = "" ↔ chunkTexts cs = [] := by
  refine ⟨fun hEmpty => ?_, fun hNone => by simp [hNone]⟩
  by_contra hSome
  exact (trimmed_intercalate hSome fun t ht => mem_chunkTexts ht).1 hEmpty

/-- The loop puts the texts and the segments of the chunks together. -/
theorem foldlM_chunk (cs : List TranscribedChunk) :
    (cs.map (·.chunk)).foldlM Stitch.chunk {} =
      .ok ⟨" ".intercalate (chunkTexts cs), stitchedSegments cs, totalDuration cs⟩ := by
  induction cs using List.reverseRecOn with
  | nil => rfl
  | append_singleton cs c ih =>
    have hText : (if trimSpace c.text = "" then " ".intercalate (chunkTexts cs)
        else (if " ".intercalate (chunkTexts cs) = "" then " ".intercalate (chunkTexts cs)
          else " ".intercalate (chunkTexts cs) ++ " ") ++ trimSpace c.text) =
        " ".intercalate (chunkTexts (cs ++ [c])) := by
      rw [chunkTexts_append]
      by_cases hEmpty : trimSpace c.text = ""
      · simp [hEmpty]
      · simp only [if_neg hEmpty, intercalate_chunkTexts_eq_empty]
        by_cases hNone : chunkTexts cs = []
        · simp [hNone]
        · rw [if_neg hNone, String.intercalate_append_of_ne_nil hNone (by simp)]
          simp
    rw [List.map_append, List.foldlM_append, ih, totalDuration_append, stitchedSegments_append,
      ← hText]
    rfl

/-- The steps before the loop succeed, and the last of them leaves the chunks `cs`. -/
structure SttPipeline.Extracts (p : SttPipeline) (cs : List AudioChunk) : Prop where
  progress : ∀ msg, p.progress msg = .ok ()
  downloadVideo : p.downloadVideo = .ok ()
  mkdirTemp : p.mkdirTemp = .ok ()
  extractAudioSegments : p.extractAudioSegments = .ok cs

/-- The chunks that are transcribed are put together in order: each segment is shifted by the
length of the chunks before its own, so that the starts never decrease, and the texts are joined by
single spaces.  A video without text is an error. -/
theorem runSTTAnalyze_stitches (p : SttPipeline) (cs : List TranscribedChunk)
    (hSteps : p.Extracts (cs.map (·.chunk))) (hTimed : ∀ c ∈ cs, c.Timed) :
    runSTTAnalyze p =
      (if chunkTexts cs = [] then .error emptyTranscript
      else .ok (" ".intercalate (chunkTexts cs), stitchedSegments cs)) ∧
    (stitchedSegments cs).Pairwise fun a b => a.startSeconds ≤ b.startSeconds := by
  refine ⟨?_, (stitchedSegments_increasing hTimed).1⟩
  unfold runSTTAnalyze
  rw [hSteps.downloadVideo, hSteps.mkdirTemp, hSteps.extractAudioSegments]
  simp only [hSteps.progress, Except.mapError, foldlM_chunk, bind, Except.bind,
    trimSpace_chunkTexts, intercalate_chunkTexts_eq_empty]
  by_cases hNone : chunkTexts cs = []
  · rw [if_pos hNone, if_pos hNone]
    rfl
  · rw [if_neg hNone, if_neg hNone]
    rfl

/-- Two seconds and one second of audio. -/
def sampleChunks : List TranscribedChunk :=
  [⟨some 64044, " xin chào", [⟨0, 1, "xin"⟩, ⟨1, 2, "chào"⟩]⟩,
    ⟨some 32044, "cả lớp", [⟨1 / 2, 1, "cả lớp"⟩]⟩]

def samplePipeline : SttPipeline where
  progress _ := .ok ()
  downloadVideo := .ok ()
  mkdirTemp := .ok ()
  extractAudioSegments := .ok (sampleChunks.map (·.chunk))

theorem runSTTAnalyze_sample : runSTTAnalyze samplePipeline =
    .ok (" ".intercalate (chunkTexts sampleChunks), stitchedSegments sampleChunks) := by
  have hSome : chunkTexts sampleChunks ≠ [] := by decide +kernel
  have hTimed : ∀ c ∈ sampleChunks, c.Timed := by
    intro c hc
    rcases List.mem_pair.mp hc with rfl | rfl <;> constructor <;>
      norm_num [TranscribedChunk.duration, wavDurationSeconds, wavHeaderBytes, wavBytesPerSecond]
  have h := (runSTTAnalyze_stitches samplePipeline sampleChunks ⟨fun _ => rfl, rfl, rfl, rfl⟩
    hTimed).1
  rwa [if_neg hSome] at h

end Richter.Generation
