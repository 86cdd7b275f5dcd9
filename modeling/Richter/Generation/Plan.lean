import Richter.Courses.Content
import Richter.Lib.RoundRobin

/-! How many questions of which kinds are generated for a chunk: `resolveGenerationPlan`
(`internal/svc/ai/generation/helpers.go`). -/

namespace Richter.Generation

open Lib
open Courses (ChunkInteractionConfig GenerationStrategy Lesson LessonTranscriptChunk
  decodeInteractionConfig)
open Interactions (InteractionKind dbStringToKind)

def defaultGenerationCount : Int := 2

structure KindCount where
  kind : InteractionKind
  count : Nat
  deriving DecidableEq

structure GenerationPlan where
  useAIChoose : Bool := false
  aiKinds : List InteractionKind := []
  aiCount : Int := 0
  evenCounts : List KindCount := []
  deriving DecidableEq

def interactionConfigFromJSON : Option Json → Option ChunkInteractionConfig :=
  decodeInteractionConfig dbStringToKind

/-- The variables `cfgKinds`, `cfgCount` and `cfgStrategy`. -/
structure Settings where
  kinds : List InteractionKind
  count : Int
  strategy : GenerationStrategy
  deriving DecidableEq

/-- What a configuration sets replaces what was set before. -/
def Settings.overlay (s : Settings) (c : ChunkInteractionConfig) : Settings where
  kinds := if c.kinds ≠ [] then c.kinds else s.kinds
  count := if 0 < c.count then c.count else s.count
  strategy := if c.strategy ≠ .unspecified then c.strategy else s.strategy

def Settings.overlay? (s : Settings) : Option ChunkInteractionConfig → Settings
  | some c => s.overlay c
  | none => s

/-- The built-in values replace what nothing has set. -/
def Settings.withDefaults (s : Settings) : Settings :=
  { s with
    kinds := if s.kinds = [] then [.singleChoice] else s.kinds
    count := if s.count ≤ 0 then defaultGenerationCount else s.count }

/-- The kinds in turn, and the number of times that each of them comes up. -/
def evenCounts (kinds : List InteractionKind) (count : Int) : List KindCount :=
  (distinct [] kinds).map fun k => ⟨k, (cycle kinds count.toNat).count k⟩

/-- The settings of `resolveGenerationPlan`. -/
def resolveSettings (chunk : LessonTranscriptChunk) (lesson : Lesson)
    (reqKinds : List InteractionKind) (reqCount : Int) (reqStrategy : GenerationStrategy) :
    Settings :=
  let s : Settings := ⟨[], chunk.questionCountConfig, .unspecified⟩
  let s := s.overlay? (interactionConfigFromJSON lesson.defaultInteractionConfig)
  let s := s.overlay? (interactionConfigFromJSON chunk.interactionConfig)
  (s.overlay ⟨reqCount, reqKinds, reqStrategy⟩).withDefaults

/-- `resolveGenerationPlan`. -/
def resolveGenerationPlan (chunk : LessonTranscriptChunk) (lesson : Lesson)
    (reqKinds : List InteractionKind) (reqCount : Int) (reqStrategy : GenerationStrategy) :
    GenerationPlan :=
  let s := resolveSettings chunk lesson reqKinds reqCount reqStrategy
  if s.strategy ≠ .evenDistribution then
    { useAIChoose := true, aiKinds := s.kinds, aiCount := s.count }
  else { evenCounts := evenCounts s.kinds s.count }

/-- The value of the first source that sets one. -/
def mostSpecific {α : Type} (sets : α → Bool) (sources : List α) (fallback : α) : α :=
  (sources.find? sets).getD fallback

section Precedence

variable {α : Type} {sets : α → Bool}

theorem mostSpecific_cons (a : α) (sources : List α) (fallback : α) :
    mostSpecific sets (a :: sources) fallback =
      if sets a then a else mostSpecific sets sources fallback := by
  unfold mostSpecific
  rw [List.find?_cons]
  split
  · next h => rw [if_pos h, Option.getD_some]
  · next h => rw [if_neg (by simp [h])]

/-- A value that replaces one which sets nothing. -/
theorem ite_mostSpecific {sources : List α} {a fallback : α} {unset : Prop} [Decidable unset]
    (hUnset : unset ↔ sets (mostSpecific sets sources a) = false) :
    (if unset then fallback else mostSpecific sets sources a) =
      mostSpecific sets (sources ++ [a]) fallback := by
  induction sources with
  | nil =>
    have hUnset : unset ↔ sets a = false := hUnset
    rw [List.nil_append, mostSpecific_cons]
    by_cases h : unset
    · rw [if_pos h, if_neg (Bool.eq_false_iff.mp (hUnset.mp h))]
      rfl
    · rw [if_neg h, if_pos (Bool.of_not_eq_false (mt hUnset.mpr h))]
      rfl
  | cons b sources ih =>
    rw [mostSpecific_cons] at hUnset
    rw [List.cons_append, mostSpecific_cons, mostSpecific_cons]
    by_cases hb : sets b = true
    · rw [if_pos hb] at hUnset
      rw [if_pos hb, if_pos hb, if_neg fun h => by simp [hUnset.mp h] at hb]
    · rw [if_neg hb] at hUnset
      rw [if_neg hb, if_neg hb]
      exact ih hUnset

/-- A source that sets nothing may be left out. -/
theorem mostSpecific_append_unset {a : α} (ha : sets a = false) (sources : List α) (fallback : α) :
    mostSpecific sets (sources ++ [a]) fallback = mostSpecific sets sources fallback := by
  induction sources with
  | nil =>
    rw [List.nil_append, mostSpecific_cons, if_neg (by simp [ha])]
  | cons b sources ih => rw [List.cons_append, mostSpecific_cons, mostSpecific_cons, ih]

/-- A fallback that sets a value leaves none unset. -/
theorem sets_mostSpecific {fallback : α} (h : sets fallback = true) (sources : List α) :
    sets (mostSpecific sets sources fallback) = true := by
  induction sources with
  | nil => exact h
  | cons a sources ih =>
    rw [mostSpecific_cons]
    split
    · next ha => exact ha
    · exact ih

end Precedence

/-- The sources of a generation's settings, the most specific one first. -/
def sources (chunk : LessonTranscriptChunk) (lesson : Lesson) (req : ChunkInteractionConfig) :
    List ChunkInteractionConfig :=
  req :: ((interactionConfigFromJSON chunk.interactionConfig).toList ++
    (interactionConfigFromJSON lesson.defaultInteractionConfig).toList)

/-- The settings from the less specific sources to the more specific ones. -/
def Settings.overlays (s : Settings) (configs : List ChunkInteractionConfig) : Settings :=
  configs.foldr (fun c s => s.overlay c) s

theorem Settings.overlays_eq (s : Settings) (configs : List ChunkInteractionConfig) :
    s.overlays configs =
      { kinds := mostSpecific (fun ks => ks ≠ []) (configs.map (·.kinds)) s.kinds
        count := mostSpecific (fun n => 0 < n) (configs.map (·.count)) s.count
        strategy := mostSpecific (fun t => t ≠ .unspecified) (configs.map (·.strategy))
          s.strategy } := by
  induction configs with
  | nil => rfl
  | cons c configs ih =>
    rw [overlays] at ih
    rw [overlays, List.foldr_cons, ih]
    simp only [List.map_cons, mostSpecific_cons, decide_eq_true_eq]
    rfl

theorem resolveSettings_eq (chunk : LessonTranscriptChunk) (lesson : Lesson)
    (reqKinds : List InteractionKind) (reqCount : Int) (reqStrategy : GenerationStrategy) :
    resolveSettings chunk lesson reqKinds reqCount reqStrategy =
      (Settings.overlays ⟨[], chunk.questionCountConfig, .unspecified⟩
        (sources chunk lesson ⟨reqCount, reqKinds, reqStrategy⟩)).withDefaults := by
  unfold resolveSettings sources Settings.overlays
  cases interactionConfigFromJSON chunk.interactionConfig <;>
    cases interactionConfigFromJSON lesson.defaultInteractionConfig <;> rfl

/-- The counts deal `count` questions out over the kinds in turn. -/
structure DealtEvenly (kinds : List InteractionKind) (count : Int) (counts : List KindCount) :
    Prop where
  total : (counts.map (·.count)).sum = count.toNat
  once : (counts.map (·.kind)).Nodup
  covers : ∀ k, k ∈ counts.map (·.kind) ↔ k ∈ kinds
  inOrder : (counts.map (·.kind)).Pairwise fun a b => kinds.idxOf a < kinds.idxOf b
  shares : ∀ kc ∈ counts,
    kinds.count kc.kind * (count.toNat / kinds.length) ≤ kc.count ∧
      kc.count ≤ kinds.count kc.kind * (count.toNat ⌈/⌉ kinds.length)

theorem evenCounts_dealtEvenly {kinds : List InteractionKind} (hKinds : kinds ≠ [])
    (count : Int) : DealtEvenly kinds count (evenCounts kinds count) := by
  have hKindsOf : (evenCounts kinds count).map (·.kind) = distinct [] kinds := by
    rw [evenCounts, List.map_map]
    exact List.map_id _
  constructor
  · have hCounts : (evenCounts kinds count).map (·.count) =
        (distinct [] kinds).map fun k => (cycle kinds count.toNat).count k := by
      rw [evenCounts, List.map_map]
      rfl
    rw [hCounts, sum_count_distinct fun k => mem_of_mem_cycle, length_cycle hKinds]
  · rw [hKindsOf]
    exact nodup_distinct [] kinds
  · intro k
    rw [hKindsOf, mem_distinct]
    simp
  · rw [hKindsOf]
    exact distinct_sorted [] kinds
  · intro kc hkc
    obtain ⟨k, _, rfl⟩ := List.mem_map.mp hkc
    exact count_cycle_between hKinds count.toNat k

/-- The settings, each from the most specific source that sets it; the count of the chunk's own
column comes after the configurations. -/
def effectiveSettings (chunk : LessonTranscriptChunk) (configs : List ChunkInteractionConfig) :
    Settings where
  kinds := mostSpecific (fun ks => ks ≠ []) (configs.map (·.kinds)) [.singleChoice]
  count := mostSpecific (fun n => 0 < n) (configs.map (·.count) ++ [chunk.questionCountConfig]) 2
  strategy := mostSpecific (fun t => t ≠ .unspecified) (configs.map (·.strategy)) .unspecified

/-- The plan follows the settings; an even distribution deals the questions out over the kinds. -/
structure Settings.Planned (e : Settings) (plan : GenerationPlan) : Prop where
  kinds : e.kinds ≠ []
  count : 0 < e.count
  chosen : e.strategy ≠ .evenDistribution → plan = ⟨true, e.kinds, e.count, []⟩
  dealt : e.strategy = .evenDistribution →
    plan = ⟨false, [], 0, plan.evenCounts⟩ ∧ DealtEvenly e.kinds e.count plan.evenCounts

theorem resolveSettings_eq_effective (chunk : LessonTranscriptChunk) (lesson : Lesson)
    (reqKinds : List InteractionKind) (reqCount : Int) (reqStrategy : GenerationStrategy) :
    resolveSettings chunk lesson reqKinds reqCount reqStrategy =
      effectiveSettings chunk (sources chunk lesson ⟨reqCount, reqKinds, reqStrategy⟩) := by
  rw [resolveSettings_eq, Settings.overlays_eq]
  generalize sources chunk lesson ⟨reqCount, reqKinds, reqStrategy⟩ = configs
  have hKinds : (if mostSpecific (fun ks => ks ≠ []) (configs.map (·.kinds)) [] = [] then
      [.singleChoice] else mostSpecific (fun ks => ks ≠ []) (configs.map (·.kinds)) []) =
      mostSpecific (fun ks => ks ≠ []) (configs.map (·.kinds)) [.singleChoice] := by
    rw [ite_mostSpecific (by simp), mostSpecific_append_unset rfl]
  have hCount : (if mostSpecific (fun n => 0 < n) (configs.map (·.count))
      chunk.questionCountConfig ≤ 0 then 2 else mostSpecific (fun n => 0 < n)
        (configs.map (·.count)) chunk.questionCountConfig) =
      mostSpecific (fun n => 0 < n) (configs.map (·.count) ++ [chunk.questionCountConfig]) 2 :=
    ite_mostSpecific (by simp)
  exact congrArg₂ (fun ks n => Settings.mk ks n _) hKinds hCount

/-- The plan takes kinds, count and strategy from the most specific source that sets them. -/
theorem resolveGenerationPlan_spec (chunk : LessonTranscriptChunk) (lesson : Lesson)
    (reqKinds : List InteractionKind) (reqCount : Int) (reqStrategy : GenerationStrategy) :
    (effectiveSettings chunk (sources chunk lesson ⟨reqCount, reqKinds, reqStrategy⟩)).Planned
      (resolveGenerationPlan chunk lesson reqKinds reqCount reqStrategy) := by
  unfold resolveGenerationPlan
  rw [resolveSettings_eq_effective]
  generalize hSettings : effectiveSettings chunk
    (sources chunk lesson ⟨reqCount, reqKinds, reqStrategy⟩) = e
  have hKinds : e.kinds ≠ [] := by
    rw [← hSettings]
    exact of_decide_eq_true (@sets_mostSpecific _ (fun ks => ks ≠ []) _ rfl _)
  have hCount : 0 < e.count := by
    rw [← hSettings]
    exact of_decide_eq_true (@sets_mostSpecific Int (fun n => 0 < n) _ rfl _)
  refine ⟨hKinds, hCount, fun hChoose => ?_, fun hEven => ?_⟩
  · exact if_pos hChoose
  · dsimp only
    rw [if_neg (not_not.mpr hEven)]
    exact ⟨rfl, evenCounts_dealtEvenly hKinds e.count⟩

/-- A chunk whose column asks for three questions. -/
def chunkOfThree : LessonTranscriptChunk where
  id := 1
  lessonId := 2
  orderIndex := 0
  startSeconds := 0
  endSeconds := 45
  summary := "Intro"
  questionCountConfig := 3
  interactionConfig := none

def lessonWithDefault (config : Option Json) : Lesson where
  id := 2
  moduleId := 3
  title := "Lesson"
  description := none
  orderIndex := 0
  videoStorageKey := none
  durationSeconds := none
  feedbackMode := "immediate"
  language := "vi"
  audioLanguage := "vi"
  maxAttempts := 1
  defaultInteractionConfig := config
  createdAt := 0
  updatedAt := 0

/-- Three questions are planned where no configuration sets a count, instead of the built-in two;
and the five of the lesson's default, instead of the three of the chunk's column. -/
theorem column_count_planned :
    (resolveGenerationPlan chunkOfThree (lessonWithDefault none) [] 0 .unspecified).aiCount = 3 ∧
    mostSpecific (fun n => 0 < n)
      ((sources chunkOfThree (lessonWithDefault none) ⟨0, [], .unspecified⟩).map (·.count)) 2 = 2 ∧
    (resolveGenerationPlan chunkOfThree (lessonWithDefault (some (.obj [("count", .num 5 0)]))) [] 0
      .unspecified).aiCount = 5 := by
  refine ⟨?_, ?_, ?_⟩ <;> decide +kernel

end Richter.Generation
