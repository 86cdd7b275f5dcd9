import Mathlib.Data.Rat.Floor
import Mathlib.Algebra.Order.Field.Basic
import Richter.Generation.Engine

/-! The chunk stage's call of the engine: `runGeminiChunk` (`internal/svc/ai/chunking_service.go`).
Seconds are exact rationals. -/

namespace Richter.Ai

open Lib
open Generation (Raw EngineEnv unmarshal)

structure TranscriptChunkRaw where
  summary : String := ""
  startSeconds : ℚ := 0
  endSeconds : ℚ := 0
  deriving DecidableEq

/-- A number of seconds. -/
def seconds : Decoder ℚ
  | x, .null => some x
  | _, .num mantissa scale => some (mantissa / 10 ^ scale)
  | _, _ => none

def transcriptChunkRaw : Decoder TranscriptChunkRaw :=
  .struct [
    .of "summary" .string (·.summary) fun ch x => { ch with summary := x },
    .of "start_seconds" seconds (·.startSeconds) fun ch x => { ch with startSeconds := x },
    .of "end_seconds" seconds (·.endSeconds) fun ch x => { ch with endSeconds := x }]

/-- The struct that the answer is decoded into. -/
structure ChunksJSON where
  chunks : Slice TranscriptChunkRaw := .nil

def chunksJSON : Decoder ChunksJSON :=
  .struct [.of "chunks" (transcriptChunkRaw.slice {}) (·.chunks) fun r x => { r with chunks := x }]

/-- An error of the engine ends the stage, instead of one more attempt. -/
def chunkFails (attempt attempts : Nat) (msg : String) : Bool :=
  !isTransientGeminiError msg || attempt == attempts

/-- The loop over the attempts, with `left` of them to go. -/
def generateRaw (env : EngineEnv) (attempts : Nat) : Nat → Nat → Except String Raw
  | _, 0 => .ok (.text "")
  | attempt, left + 1 =>
    match env.generate attempt with
    | .ok raw => .ok raw
    | .error msg =>
      if chunkFails attempt attempts msg then .error (friendlyGeminiError msg)
      else
        match env.ctxErr attempt with
        | some e => .error e
        | none => generateRaw env attempts (attempt + 1) left

/-- The repairs of one chunk. -/
def repairChunk (ch : TranscriptChunkRaw) : TranscriptChunkRaw :=
  let ch := if ch.endSeconds ≤ ch.startSeconds then { ch with endSeconds := ch.startSeconds + 30 }
    else ch
  if ch.startSeconds < 0 then { ch with startSeconds := 0 } else ch

def normalizeChunks (chunks : List TranscriptChunkRaw) : List TranscriptChunkRaw :=
  (chunks.map repairChunk).mergeSort fun a b => a.startSeconds ≤ b.startSeconds

/-- `runGeminiChunk`, up to the prompt. -/
def runGeminiChunk (env : EngineEnv) (geminiMaxAttempts : Int) :
    Except String (List TranscriptChunkRaw) :=
  let attempts := (max geminiMaxAttempts 1).toNat
  match generateRaw env attempts 1 attempts with
  | .error e => .error e
  | .ok raw =>
    match unmarshal chunksJSON env.syntaxError {} raw with
    | .error e => .error ("parse gemini response: " ++ e)
    | .ok result => .ok (normalizeChunks result.chunks.elems)

/-- The repairs of the chunk undo each other when it starts before the video: its end is not
repaired though it is not after the start of the video, or is repaired by too little. -/
def Repairable (ch : TranscriptChunkRaw) : Prop :=
  0 ≤ ch.startSeconds ∨ (ch.startSeconds < ch.endSeconds ∧ 0 < ch.endSeconds) ∨
    (ch.endSeconds ≤ ch.startSeconds ∧ -30 < ch.startSeconds)

instance (ch : TranscriptChunkRaw) : Decidable (Repairable ch) :=
  inferInstanceAs (Decidable (_ ∨ _))

/-- The repairs leave a chunk that starts in the video and ends after its start, unless they undo
each other. -/
theorem repairChunk_spans (ch : TranscriptChunkRaw) :
    (0 ≤ (repairChunk ch).startSeconds ∧
      (repairChunk ch).startSeconds < (repairChunk ch).endSeconds) ↔ Repairable ch := by
  obtain ⟨summary, start, stop⟩ := ch
  unfold repairChunk Repairable
  dsimp only
  by_cases hOrder : stop ≤ start
  · rw [if_pos hOrder]
    by_cases hStart : start < 0
    · rw [if_pos hStart]
      grind
    · rw [if_neg hStart]
      grind
  · rw [if_neg hOrder]
    by_cases hStart : start < 0
    · rw [if_pos hStart]
      grind
    · rw [if_neg hStart]
      grind

/-- `out` is sorted and has every chunk once, within the video and with its end after its start. -/
structure Normalized (chunks out : List TranscriptChunkRaw) : Prop where
  spans : ∀ ch ∈ out, 0 ≤ ch.startSeconds ∧ ch.startSeconds < ch.endSeconds
  sorted : out.Pairwise fun a b => a.startSeconds ≤ b.startSeconds
  perm : out.Perm (chunks.map repairChunk)

theorem normalizeChunks_perm (chunks : List TranscriptChunkRaw) :
    (normalizeChunks chunks).Perm (chunks.map repairChunk) :=
  List.mergeSort_perm _ _

theorem normalizeChunks_sorted (chunks : List TranscriptChunkRaw) :
    (normalizeChunks chunks).Pairwise fun a b => a.startSeconds ≤ b.startSeconds := by
  have hSorted := @List.pairwise_mergeSort TranscriptChunkRaw
    (fun a b => decide (a.startSeconds ≤ b.startSeconds))
    (by simpa using fun a b c : TranscriptChunkRaw => le_trans)
    (by simpa using fun a b : TranscriptChunkRaw => le_total a.startSeconds b.startSeconds)
    (chunks.map repairChunk)
  exact hSorted.imp of_decide_eq_true

theorem normalizeChunks_normalized (chunks : List TranscriptChunkRaw) :
    Normalized chunks (normalizeChunks chunks) ↔ ∀ ch ∈ chunks, Repairable ch := by
  have hMem : ∀ ch, ch ∈ normalizeChunks chunks ↔ ∃ raw ∈ chunks, repairChunk raw = ch := by
    intro ch
    rw [(normalizeChunks_perm chunks).mem_iff, List.mem_map]
  constructor
  · intro h ch hch
    exact (repairChunk_spans ch).mp (h.spans _ ((hMem _).mpr ⟨ch, hch, rfl⟩))
  · intro h
    refine ⟨fun ch hch => ?_, normalizeChunks_sorted chunks, normalizeChunks_perm chunks⟩
    obtain ⟨raw, hRaw, rfl⟩ := (hMem ch).mp hch
    exact (repairChunk_spans raw).mpr (h raw hRaw)

/-- What the loop over the attempts returns is an answer of the engine. -/
theorem generateRaw_answered {env : EngineEnv} {attempts attempt left : Nat} {raw : Raw}
    (hLeft : attempt + left = attempts)
    (h : generateRaw env attempts attempt (left + 1) = .ok raw) :
    ∃ n, env.generate n = .ok raw := by
  induction left generalizing attempt with
  | zero =>
    rw [generateRaw] at h
    cases hAnswer : env.generate attempt with
    | ok answer =>
      rw [hAnswer] at h
      exact ⟨attempt, hAnswer.trans h⟩
    | error msg =>
      have hLast : chunkFails attempt attempts msg = true := by simp [chunkFails, ← hLeft]
      rw [hAnswer] at h
      dsimp only at h
      rw [if_pos hLast] at h
      cases h
  | succ left ih =>
    rw [generateRaw] at h
    cases hAnswer : env.generate attempt with
    | ok answer =>
      rw [hAnswer] at h
      exact ⟨attempt, hAnswer.trans h⟩
    | error msg =>
      rw [hAnswer] at h
      dsimp only at h
      split at h
      · cases h
      · split at h
        · cases h
        · exact ih (by omega) h

/-- The chunks that the stage goes on with, for the chunks of the engine's answer. -/
theorem runGeminiChunk_normalized (env : EngineEnv) (geminiMaxAttempts : Int) :
    (∀ out, runGeminiChunk env geminiMaxAttempts = .ok out → ∃ attempt raw result,
      env.generate attempt = .ok raw ∧ unmarshal chunksJSON env.syntaxError {} raw = .ok result ∧
      out = normalizeChunks result.chunks.elems) ∧
    ∀ chunks, Normalized chunks (normalizeChunks chunks) ↔
      ∀ ch ∈ chunks, 0 ≤ ch.startSeconds ∨ (ch.startSeconds < ch.endSeconds ∧ 0 < ch.endSeconds) ∨
        (ch.endSeconds ≤ ch.startSeconds ∧ -30 < ch.startSeconds) := by
  refine ⟨fun out h => ?_, normalizeChunks_normalized⟩
  obtain ⟨left, hLeft⟩ : ∃ left, (max geminiMaxAttempts 1).toNat = left + 1 :=
    ⟨(max geminiMaxAttempts 1).toNat - 1, by omega⟩
  unfold runGeminiChunk at h
  dsimp only at h
  split at h
  · cases h
  · next raw hRaw =>
    rw [hLeft] at hRaw
    obtain ⟨attempt, hAnswer⟩ := generateRaw_answered (by omega) hRaw
    split at h
    · cases h
    · next result hResult => exact ⟨attempt, raw, result, hAnswer, hResult, (Except.ok.inj h).symm⟩

/-- The engine answers with a chunk from -10 to -5, which comes out as one from 0 to -5. -/
theorem runGeminiChunk_not_normalized :
    let answer : Json := .obj [("chunks", .arr [.obj [("summary", .str "Intro"),
      ("start_seconds", .num (-10) 0), ("end_seconds", .num (-5) 0)]])]
    let env : EngineEnv := ⟨fun _ => .ok (.json answer), fun _ => none, fun _ => ""⟩
    runGeminiChunk env 4 = .ok [⟨"Intro", 0, -5⟩] ∧
      ¬ Normalized [⟨"Intro", -10, -5⟩] [⟨"Intro", 0, -5⟩] := by
  refine ⟨?_, fun h => ?_⟩
  · have hRepaired : normalizeChunks [⟨"Intro", (-10 : Int) / 10 ^ 0, (-5 : Int) / 10 ^ 0⟩] =
        [⟨"Intro", 0, -5⟩] := by
      rw [normalizeChunks, List.map_singleton, List.mergeSort_singleton]
      decide +kernel
    exact congrArg Except.ok hRepaired
  · have hSpan := (h.spans _ List.mem_cons_self).2
    exact absurd hSpan (by decide +kernel)

end Richter.Ai
