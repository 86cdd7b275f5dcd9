import Richter.Courses.InteractionConfig

/-! The numbers of questions of each kind that a teacher sets (`kind-quantity-grid.tsx`): how they
are written into the configuration of a generation, and what is shown of a stored one. -/

namespace Richter.Dashboard

open Lib
open Courses (ChunkInteractionConfig GenerationStrategy Lesson LessonTranscriptChunk
  interactionConfigToJSON)
open Generation (GenerationPlan KindCount resolveGenerationPlan)
open Interactions (InteractionKind)

/-- The kinds of `KIND_OPTIONS` and of `KNOWN_KINDS`, in their order. -/
def knownKinds : List InteractionKind :=
  [.singleChoice, .multipleChoice, .fillBlank, .reading, .listening]

@[ext] structure KindQuantities where
  singleChoice : Int
  multipleChoice : Int
  fillBlank : Int
  reading : Int
  listening : Int
  deriving DecidableEq, Repr

def emptyQuantities : KindQuantities := ⟨0, 0, 0, 0, 0⟩

namespace KindQuantities

/-- `quantities[kind] ?? 0`. -/
def get (q : KindQuantities) : InteractionKind → Int
  | .singleChoice => q.singleChoice
  | .multipleChoice => q.multipleChoice
  | .fillBlank => q.fillBlank
  | .reading => q.reading
  | .listening => q.listening
  | .unspecified | .writing => 0

/-- `result[kind] = n`, for a known kind. -/
def set (q : KindQuantities) (k : InteractionKind) (n : Int) : KindQuantities :=
  match k with
  | .singleChoice => { q with singleChoice := n }
  | .multipleChoice => { q with multipleChoice := n }
  | .fillBlank => { q with fillBlank := n }
  | .reading => { q with reading := n }
  | .listening => { q with listening := n }
  | .unspecified | .writing => q

end KindQuantities

/-- `totalQuantity`. -/
def totalQuantity (q : KindQuantities) : Int :=
  q.singleChoice + q.multipleChoice + q.fillBlank + q.reading + q.listening

/-- `toKindsList`. -/
def toKindsList (q : KindQuantities) : List InteractionKind :=
  knownKinds.flatMap fun k => List.replicate (q.get k).toNat k

/-- How often each kind is listed. -/
def countKinds (validKinds : List InteractionKind) : KindQuantities :=
  validKinds.foldl (fun result k => result.set k (result.get k + 1)) emptyQuantities

/-- `count` in equal parts, with what is left over at the first kinds. -/
def redistribute (uniqueKinds : List InteractionKind) (count : Int) : KindQuantities :=
  let per := count.fdiv uniqueKinds.length
  let rem := count.tmod uniqueKinds.length
  uniqueKinds.zipIdx.foldl (fun result p => result.set p.1 (per + if p.2 < rem then 1 else 0))
    emptyQuantities

/-- `fromConfig`.  A configuration whose kinds do not add up to its count is one of the legacy
format, in which each kind is listed once. -/
def fromConfig (cfg : Option ChunkInteractionConfig) : KindQuantities :=
  match cfg with
  | none => emptyQuantities
  | some cfg =>
    let validKinds := cfg.kinds.filter fun k => k ∈ knownKinds
    let result := countKinds validKinds
    if totalQuantity result ≠ cfg.count then
      let uniqueKinds := distinct [] validKinds
      if 0 < uniqueKinds.length then redistribute uniqueKinds cfg.count else emptyQuantities
    else result

/-- The configuration that the numbers are sent as. -/
def toConfig (q : KindQuantities) (strategy : GenerationStrategy) : ChunkInteractionConfig where
  count := totalQuantity q
  kinds := toKindsList q
  strategy := strategy

variable {q : KindQuantities} {k k' : InteractionKind} {n : Int}

namespace KindQuantities

theorem get_set (hk : k ∈ knownKinds) (k' : InteractionKind) :
    (q.set k n).get k' = if k' = k then n else q.get k' := by
  simp only [knownKinds, List.mem_cons, List.not_mem_nil, or_false] at hk
  rcases hk with rfl | rfl | rfl | rfl | rfl <;> cases k' <;> rfl

theorem total_set (hk : k ∈ knownKinds) :
    totalQuantity (q.set k n) = totalQuantity q - q.get k + n := by
  simp only [knownKinds, List.mem_cons, List.not_mem_nil, or_false] at hk
  rcases hk with rfl | rfl | rfl | rfl | rfl <;> simp only [set, get, totalQuantity] <;> omega

theorem ext_get {q q' : KindQuantities} (h : ∀ k ∈ knownKinds, q.get k = q'.get k) : q = q' := by
  simp only [knownKinds, List.forall_mem_cons] at h
  obtain ⟨h₁, h₂, h₃, h₄, h₅, -⟩ := h
  exact KindQuantities.ext h₁ h₂ h₃ h₄ h₅

end KindQuantities

/-! ### Quantities that are written out -/

theorem count_toKindsList (q : KindQuantities) (k : InteractionKind) :
    (toKindsList q).count k = (q.get k).toNat := by
  cases k <;> simp [toKindsList, knownKinds, List.count_replicate, KindQuantities.get]

theorem mem_knownKinds_of_mem (h : k ∈ toKindsList q) : k ∈ knownKinds := by
  obtain ⟨k', hk', hMem⟩ := List.mem_flatMap.mp h
  rw [List.eq_of_mem_replicate hMem]
  exact hk'

theorem get_foldl_count {ks : List InteractionKind} (hKs : ∀ k ∈ ks, k ∈ knownKinds)
    (r : KindQuantities) (k : InteractionKind) :
    (ks.foldl (fun result k => result.set k (result.get k + 1)) r).get k =
      r.get k + ks.count k := by
  induction ks generalizing r with
  | nil => simp
  | cons a ks ih =>
    rw [List.foldl_cons, ih fun b hb => hKs b (List.mem_cons_of_mem a hb),
      KindQuantities.get_set (hKs a List.mem_cons_self), List.count_cons]
    by_cases hEq : k = a
    · simp [hEq]
      omega
    · simp [hEq, Ne.symm hEq]

theorem get_countKinds {ks : List InteractionKind} (hKs : ∀ k ∈ ks, k ∈ knownKinds)
    (k : InteractionKind) : (countKinds ks).get k = ks.count k := by
  rw [countKinds, get_foldl_count hKs]
  cases k <;> simp [emptyQuantities, KindQuantities.get]

theorem countKinds_toKindsList (h : ∀ k, 0 ≤ q.get k) : countKinds (toKindsList q) = q := by
  refine KindQuantities.ext_get fun k _ => ?_
  rw [get_countKinds fun k hk => mem_knownKinds_of_mem hk, count_toKindsList,
    Int.toNat_of_nonneg (h k)]

/-- The numbers come back as they were set. -/
theorem fromConfig_toConfig (h : ∀ k, 0 ≤ q.get k) (strategy : GenerationStrategy) :
    fromConfig (some (toConfig q strategy)) = q := by
  have hValid : (toKindsList q).filter (fun k => k ∈ knownKinds) = toKindsList q :=
    List.filter_eq_self.mpr fun k hk => by simpa using mem_knownKinds_of_mem hk
  simp [fromConfig, toConfig, hValid, countKinds_toKindsList h]

/-! ### Quantities that are dealt out -/

/-- Kinds that are set for the first time add up. -/
theorem totalQuantity_foldl_set (value : InteractionKind × ℕ → Int)
    {ps : List (InteractionKind × ℕ)} (hPs : ∀ p ∈ ps, p.1 ∈ knownKinds)
    (hNodup : (ps.map Prod.fst).Nodup) {r : KindQuantities} (hr : ∀ p ∈ ps, r.get p.1 = 0) :
    totalQuantity (ps.foldl (fun result p => result.set p.1 (value p)) r) =
      totalQuantity r + (ps.map value).sum := by
  induction ps generalizing r with
  | nil => simp
  | cons p ps ih =>
    rw [List.map_cons, List.nodup_cons] at hNodup
    have hp : p.1 ∈ knownKinds := hPs p List.mem_cons_self
    have hRest : ∀ p' ∈ ps, (r.set p.1 (value p)).get p'.1 = 0 := by
      intro p' hp'
      rw [KindQuantities.get_set hp, if_neg, hr p' (List.mem_cons_of_mem p hp')]
      rintro hEq
      exact hNodup.1 (hEq ▸ List.mem_map_of_mem hp')
    rw [List.foldl_cons, ih (fun p' hp' => hPs p' (List.mem_cons_of_mem p hp')) hNodup.2 hRest,
      KindQuantities.total_set hp, hr p List.mem_cons_self, List.map_cons, List.sum_cons]
    omega

/-- Equal parts with one more for the first `rem` of them. -/
theorem sum_parts (per rem : Int) (n : ℕ) (hRem : 0 ≤ rem) :
    ((List.range n).map fun i : ℕ => per + if (i : Int) < rem then 1 else 0).sum =
      per * n + min (n : Int) rem := by
  induction n with
  | zero => simp [hRem]
  | succ n ih =>
    rw [List.range_succ, List.map_append, List.sum_append, ih, List.map_singleton,
      List.sum_singleton]
    push_cast
    rw [mul_add, mul_one]
    split <;> omega

theorem totalQuantity_redistribute {ks : List InteractionKind} (hKs : ∀ k ∈ ks, k ∈ knownKinds)
    (hNodup : ks.Nodup) (hSome : ks ≠ []) {count : Int} (hCount : 0 ≤ count) :
    totalQuantity (redistribute ks count) = count := by
  have hLen : 0 < ks.length := List.length_pos_iff.mpr hSome
  have hMem : ∀ p ∈ ks.zipIdx, p.1 ∈ knownKinds := fun p hp =>
    hKs p.1 (List.fst_mem_of_mem_zipIdx hp)
  have hFst : (ks.zipIdx.map Prod.fst).Nodup := by rwa [List.zipIdx_map_fst]
  have hValues : ks.zipIdx.map (fun p =>
      count.fdiv ks.length + if (p.2 : Int) < count.tmod ks.length then 1 else 0) =
      (List.range ks.length).map fun i : ℕ =>
        count.fdiv ks.length + if (i : Int) < count.tmod ks.length then 1 else 0 := by
    rw [List.range_eq_range', ← List.zipIdx_map_snd 0 ks, List.map_map]
    rfl
  have hRem : 0 ≤ count.tmod ks.length := Int.tmod_nonneg _ hCount
  have hLt : count.tmod ks.length < ks.length := Int.tmod_lt_of_pos _ (by omega)
  have hParts : count.fdiv ks.length * ks.length + count.tmod ks.length = count := by
    rw [Int.fdiv_eq_ediv_of_nonneg _ (by omega), Int.tmod_eq_emod_of_nonneg hCount]
    exact Int.ediv_mul_add_emod count ks.length
  rw [redistribute, totalQuantity_foldl_set _ hMem hFst fun p _ => ?_, hValues,
    sum_parts _ _ _ hRem, min_eq_right hLt.le, hParts]
  · exact Int.zero_add count
  · cases p.1 <;> rfl

/-- What is shown of a stored configuration with a known kind adds up to its count. -/
theorem totalQuantity_fromConfig {cfg : ChunkInteractionConfig}
    (hKnown : ∃ k ∈ cfg.kinds, k ∈ knownKinds) (hCount : 0 ≤ cfg.count) :
    totalQuantity (fromConfig (some cfg)) = cfg.count := by
  obtain ⟨k, hk, hMem⟩ := hKnown
  simp only [fromConfig]
  split
  · have hUnique : k ∈ distinct [] (cfg.kinds.filter fun k => k ∈ knownKinds) :=
      mem_distinct.mpr ⟨List.mem_filter.mpr ⟨hk, by simpa using hMem⟩, List.not_mem_nil⟩
    rw [if_pos (List.length_pos_of_mem hUnique)]
    refine totalQuantity_redistribute (fun k' hk' => ?_) (nodup_distinct _ _)
      (List.ne_nil_of_mem hUnique) hCount
    simpa using (List.mem_filter.mp (mem_distinct.mp hk').1).2
  · next hEq => exact not_not.mp hEq

/-! ### Quantities that are planned -/

/-- A plan of `q`'s numbers: each kind with a number has one entry, which is that number. -/
structure PlansExactly (q : KindQuantities) (plan : GenerationPlan) : Prop where
  even : plan.useAIChoose = false
  once : (plan.evenCounts.map (·.kind)).Nodup
  counts : ∀ kc, kc ∈ plan.evenCounts ↔ 0 < q.get kc.kind ∧ (kc.count : Int) = q.get kc.kind

theorem length_toKindsList (h : ∀ k, 0 ≤ q.get k) :
    ((toKindsList q).length : Int) = totalQuantity q := by
  have h₁ := h .singleChoice
  have h₂ := h .multipleChoice
  have h₃ := h .fillBlank
  have h₄ := h .reading
  have h₅ := h .listening
  simp only [KindQuantities.get] at h₁ h₂ h₃ h₄ h₅
  simp only [toKindsList, knownKinds, List.flatMap_cons, List.flatMap_nil, List.length_append,
    List.length_replicate, List.length_nil, KindQuantities.get, totalQuantity]
  omega

theorem toKindsList_ne_nil (h : ∀ k, 0 ≤ q.get k) (hTotal : 0 < totalQuantity q) :
    toKindsList q ≠ [] := by
  intro hNil
  have hLen := length_toKindsList h
  rw [hNil, List.length_nil] at hLen
  omega

theorem mem_toKindsList : k ∈ toKindsList q ↔ 0 < q.get k := by
  rw [← List.count_pos_iff, count_toKindsList]
  omega

/-- One round of the list deals out the numbers that it was made from. -/
theorem mem_evenCounts (h : ∀ k, 0 ≤ q.get k) (hTotal : 0 < totalQuantity q) (kc : KindCount) :
    kc ∈ Generation.evenCounts (toKindsList q) (totalQuantity q) ↔
      0 < q.get kc.kind ∧ (kc.count : Int) = q.get kc.kind := by
  have hRound : (totalQuantity q).toNat = (toKindsList q).length := by
    rw [← length_toKindsList h, Int.toNat_natCast]
  have hDealt : ∀ k, ((cycle (toKindsList q) (totalQuantity q).toNat).count k : Int) = q.get k := by
    intro k
    rw [hRound, cycle_of_le (toKindsList_ne_nil h hTotal) (Nat.le_refl _), List.take_length,
      count_toKindsList, Int.toNat_of_nonneg (h k)]
  rw [Generation.evenCounts, List.mem_map]
  constructor
  · rintro ⟨k, hk, rfl⟩
    exact ⟨mem_toKindsList.mp (mem_distinct.mp hk).1, hDealt k⟩
  · rintro ⟨hPos, hCount⟩
    refine ⟨kc.kind, mem_distinct.mpr ⟨mem_toKindsList.mpr hPos, List.not_mem_nil⟩, ?_⟩
    have hSame : (cycle (toKindsList q) (totalQuantity q).toNat).count kc.kind = kc.count := by
      have hKind := hDealt kc.kind
      omega
    rw [hSame]

/-- The numbers as they are stored and read back. -/
theorem stored_toConfig (hTotal : 0 < totalQuantity q) (hFits : FitsInt 32 (totalQuantity q)) :
    Generation.interactionConfigFromJSON
      (interactionConfigToJSON (some (toConfig q .evenDistribution))) =
        some (toConfig q .evenDistribution) := by
  have hKinds : ∀ k ∈ (toConfig q .evenDistribution).kinds, k ≠ .unspecified := by
    rintro k hk rfl
    exact absurd (mem_knownKinds_of_mem hk) (by decide)
  have hRead := Courses.interactionConfigFromJSON_toJSON hFits hKinds
  rw [if_neg] at hRead
  · exact hRead
  · intro hEmpty
    have hCount : totalQuantity q = 0 := congrArg ChunkInteractionConfig.count hEmpty
    omega

/-- The numbers are planned, wherever they are stored, when nothing else is. -/
theorem plansExactly_of_sources (h : ∀ k, 0 ≤ q.get k) (hTotal : 0 < totalQuantity q)
    {chunk : LessonTranscriptChunk} {lesson : Lesson}
    (hSources : Generation.sources chunk lesson ⟨0, [], .unspecified⟩ =
      [⟨0, [], .unspecified⟩, toConfig q .evenDistribution]) :
    PlansExactly q (resolveGenerationPlan chunk lesson [] 0 .unspecified) := by
  have hSettings : Generation.resolveSettings chunk lesson [] 0 .unspecified =
      ⟨toKindsList q, totalQuantity q, .evenDistribution⟩ := by
    rw [Generation.resolveSettings_eq_effective, hSources]
    simp [Generation.effectiveSettings, Generation.mostSpecific, toConfig,
      toKindsList_ne_nil h hTotal, hTotal]
  have hPlan : resolveGenerationPlan chunk lesson [] 0 .unspecified =
      { evenCounts := Generation.evenCounts (toKindsList q) (totalQuantity q) } := by
    simp [resolveGenerationPlan, hSettings]
  rw [hPlan]
  refine ⟨rfl, ?_, mem_evenCounts h hTotal⟩
  exact (Generation.evenCounts_dealtEvenly (toKindsList_ne_nil h hTotal) _).once

/-- Numbers that a teacher sets are shown again as they were set, and are planned as they were set
from the configuration of the lesson or of the chunk; and what is shown of any other configuration
with a known kind adds up to its count. -/
theorem quantities_survive :
    (∀ q : KindQuantities, (∀ k, 0 ≤ q.get k) → 0 < totalQuantity q →
      (∀ strategy, fromConfig (some (toConfig q strategy)) = q) ∧
      (FitsInt 32 (totalQuantity q) → ∀ (chunk : LessonTranscriptChunk) (lesson : Lesson),
        (chunk.interactionConfig = none ∧ lesson.defaultInteractionConfig =
            interactionConfigToJSON (some (toConfig q .evenDistribution)) ∨
          lesson.defaultInteractionConfig = none ∧ chunk.interactionConfig =
            interactionConfigToJSON (some (toConfig q .evenDistribution))) →
        PlansExactly q (resolveGenerationPlan chunk lesson [] 0 .unspecified))) ∧
    (∀ cfg : ChunkInteractionConfig, (∃ k ∈ cfg.kinds, k ∈ knownKinds) → 0 ≤ cfg.count →
      totalQuantity (fromConfig (some cfg)) = cfg.count) := by
  refine ⟨fun q h hTotal => ⟨fromConfig_toConfig h, fun hFits chunk lesson hStored => ?_⟩,
    fun cfg hKnown hCount => totalQuantity_fromConfig hKnown hCount⟩
  apply plansExactly_of_sources h hTotal
  have hRead := stored_toConfig hTotal hFits
  rcases hStored with ⟨hChunk, hLesson⟩ | ⟨hLesson, hChunk⟩
  · rw [Generation.sources, hChunk, hLesson, hRead]
    rfl
  · rw [Generation.sources, hChunk, hLesson, hRead]
    rfl

/-- Two single choices and a reading, stored with the chunk; and five questions of two kinds in the
legacy format. -/
theorem quantities_survive_sample :
    fromConfig (some (toConfig ⟨2, 0, 0, 1, 0⟩ .evenDistribution)) = ⟨2, 0, 0, 1, 0⟩ ∧
    PlansExactly ⟨2, 0, 0, 1, 0⟩ (resolveGenerationPlan
      { Generation.chunkOfThree with
        interactionConfig :=
          interactionConfigToJSON (some (toConfig ⟨2, 0, 0, 1, 0⟩ .evenDistribution)) }
      (Generation.lessonWithDefault none) [] 0 .unspecified) ∧
    totalQuantity (fromConfig (some ⟨5, [.reading, .fillBlank], .aiChoose⟩)) = 5 := by
  have hEntries : ∀ k, 0 ≤ (⟨2, 0, 0, 1, 0⟩ : KindQuantities).get k := by
    intro k
    cases k <;> decide
  have hQ := quantities_survive.1 ⟨2, 0, 0, 1, 0⟩ hEntries (by decide)
  refine ⟨hQ.1 _, hQ.2 (by decide) _ _ (.inr ⟨rfl, rfl⟩), ?_⟩
  exact quantities_survive.2 ⟨5, [.reading, .fillBlank], .aiChoose⟩ ⟨.reading, by decide⟩
    (by decide)

end Richter.Dashboard
