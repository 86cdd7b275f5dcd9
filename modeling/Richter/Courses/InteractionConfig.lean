import Richter.Generation.Plan

/-! The stored configuration of a chunk's generation (`interaction_config`): its encoder, and its
three decoders, of which the one of the package `transcript` has a table of kinds of its own. -/

namespace Richter.Courses

open Lib
open Interactions (InteractionKind dbStringToKind dbStringToKind_kindToDBString int_marshalInt
  kindToDBString marshalInt marshalStrings omitEmpty reads_omitEmpty strings_marshalStrings)

def strategyToString : GenerationStrategy → String
  | .aiChoose => "ai_choose"
  | .evenDistribution => "even"
  | .unspecified => ""

/-- `interactionConfigToJSON`, which writes nothing of a configuration that says nothing. -/
def interactionConfigToJSON (cfg : Option ChunkInteractionConfig) : Option Json := do
  let cfg ← cfg
  let kinds := cfg.kinds.map kindToDBString
  let strategy := strategyToString cfg.strategy
  if cfg.count = 0 ∧ kinds = [] ∧ strategy = "" then none
  else
    return .obj (omitEmpty "count" 0 marshalInt cfg.count ++
      omitEmpty "kinds" [] marshalStrings kinds ++ omitEmpty "strategy" "" .str strategy)

/-- The table of `parseInteractionConfig`. -/
def transcriptKind : String → InteractionKind
  | "single_choice" => .singleChoice
  | "fill_blank" => .fillBlank
  | "listening" => .listening
  | "reading" => .reading
  | _ => .unspecified

theorem parseInteractionConfig_eq :
    parseInteractionConfig = decodeInteractionConfig transcriptKind := rfl

/-- The names that both tables know. -/
def sharedKinds : List String := ["fill_blank", "listening", "reading"]

/-- None of the names is one that only the other table knows, and before each shared name and at the
end the two names of single choice have come equally often. -/
def KindsAgree (kinds : List String) : Prop :=
  "multiple_choice" ∉ kinds ∧ "writing" ∉ kinds ∧
    ∀ before after, kinds = before ++ after → (∀ name ∈ after.head?, name ∈ sharedKinds) →
      before.count "mcq" = before.count "single_choice"

/-- The kinds of the document, if it decodes, agree. -/
def ConfigAgrees (data : Option Json) : Prop :=
  ∀ raw, data.bind (interactionConfigJSON {}) = some raw → KindsAgree raw.kinds.elems

section Tables

/-- The kinds that a table knows. -/
def knownKinds (kindOf : String → InteractionKind) (kinds : List String) : List InteractionKind :=
  (kinds.map kindOf).filter fun k => k ≠ .unspecified

theorem sharedKinds_spec {name : String} (h : name ∈ sharedKinds) :
    transcriptKind name = dbStringToKind name ∧ dbStringToKind name ≠ .unspecified ∧
      dbStringToKind name ≠ .singleChoice := by
  simp only [sharedKinds, List.mem_cons, List.not_mem_nil, or_false] at h
  rcases h with rfl | rfl | rfl <;> decide

/-- The kinds of the names that only the other table knows. -/
theorem transcriptKind_ne (name : String) :
    transcriptKind name ≠ .multipleChoice ∧ transcriptKind name ≠ .writing := by
  unfold transcriptKind
  split <;> decide

theorem unknown_kinds {name : String} (hShared : name ∉ sharedKinds)
    (h : name ∉ ["mcq", "single_choice", "multiple_choice", "writing"]) :
    dbStringToKind name = .unspecified ∧ transcriptKind name = .unspecified := by
  simp only [sharedKinds, List.mem_cons, List.not_mem_nil, or_false, not_or] at hShared h
  constructor
  · unfold dbStringToKind
    split <;> simp_all
  · unfold transcriptKind
    split <;> simp_all

theorem knownKinds_cons (kindOf : String → InteractionKind) (name : String) (kinds : List String) :
    knownKinds kindOf (name :: kinds) =
      if kindOf name = .unspecified then knownKinds kindOf kinds
      else kindOf name :: knownKinds kindOf kinds := by
  unfold knownKinds
  rw [List.map_cons, List.filter_cons]
  by_cases h : kindOf name = .unspecified <;> simp [h]

theorem forall_append_cons {α : Type} {a : α} {l : List α} {P : List α → List α → Prop} :
    (∀ before after, a :: l = before ++ after → P before after) ↔
      P [] (a :: l) ∧ ∀ before after, l = before ++ after → P (a :: before) after := by
  constructor
  · intro h
    exact ⟨h [] _ rfl, fun before after hEq => h _ _ (by rw [hEq, List.cons_append])⟩
  · rintro ⟨hNil, hCons⟩ before after hEq
    cases before with
    | nil =>
      rw [← show a :: l = after from hEq]
      exact hNil
    | cons b before =>
      cases hEq
      exact hCons before after rfl

/-- The stretches before the first other element are as long as each other. -/
theorem replicate_append_cons {α : Type} {a k : α} (hk : k ≠ a) (n m : Nat) (xs ys : List α) :
    List.replicate n a ++ k :: xs = List.replicate m a ++ k :: ys ↔ n = m ∧ xs = ys := by
  induction n generalizing m with
  | zero =>
    cases m with
    | zero => simp
    | succ m => simp [List.replicate_succ, hk]
  | succ n ih =>
    cases m with
    | zero => simp [List.replicate_succ, hk.symm]
    | succ m => simp [List.replicate_succ, ih]

theorem replicate_append_cons_self {α : Type} (a : α) (n : Nat) (xs : List α) :
    List.replicate n a ++ a :: xs = List.replicate (n + 1) a ++ xs := by
  rw [List.replicate_succ', List.append_assoc]
  rfl

/-- After `n` names of the one table and `m` names of the other for single choice, the two tables
make the same kinds of the rest. -/
def AgreeAfter (n m : Nat) (kinds : List String) : Prop :=
  "multiple_choice" ∉ kinds ∧ "writing" ∉ kinds ∧
    ∀ before after, kinds = before ++ after → (∀ name ∈ after.head?, name ∈ sharedKinds) →
      n + before.count "mcq" = m + before.count "single_choice"

variable {n m : Nat} {name : String} {kinds : List String}

theorem agreeAfter_nil : AgreeAfter n m [] ↔ n = m := by
  constructor
  · rintro ⟨-, -, hCounts⟩
    exact hCounts [] [] rfl nofun
  · rintro rfl
    refine ⟨List.not_mem_nil, List.not_mem_nil, fun before after hEq _ => ?_⟩
    obtain ⟨rfl, rfl⟩ := List.append_eq_nil_iff.mp hEq.symm
    rfl

theorem agreeAfter_shared (h : name ∈ sharedKinds) :
    AgreeAfter n m (name :: kinds) ↔ n = m ∧ AgreeAfter 0 0 kinds := by
  have hNe : ∀ other ∉ sharedKinds, other ≠ name := by
    rintro other hOther rfl
    exact hOther h
  have hMcq := hNe "mcq" (by decide)
  have hSingle := hNe "single_choice" (by decide)
  unfold AgreeAfter
  rw [forall_append_cons, List.mem_cons, List.mem_cons, not_or, not_or]
  simp only [List.count_cons_of_ne hMcq.symm, List.count_cons_of_ne hSingle.symm, zero_add]
  constructor
  · rintro ⟨⟨-, hMultiple⟩, ⟨-, hWriting⟩, hFirst, hCounts⟩
    have hSame : n = m := hFirst fun _ hName => by
      rw [← Option.some_inj.mp hName]
      exact h
    subst hSame
    exact ⟨rfl, hMultiple, hWriting, fun before after hEq hHead =>
      Nat.add_left_cancel (hCounts before after hEq hHead)⟩
  · rintro ⟨rfl, hMultiple, hWriting, hCounts⟩
    exact ⟨⟨hNe _ (by decide), hMultiple⟩, ⟨hNe _ (by decide), hWriting⟩, fun _ => rfl,
      fun before after hEq hHead => congrArg (n + ·) (hCounts before after hEq hHead)⟩

/-- Another name, which counts for `a` and `b`. -/
theorem agreeAfter_cons (hShared : name ∉ sharedKinds) (hMultiple : "multiple_choice" ≠ name)
    (hWriting : "writing" ≠ name) {a b : Nat}
    (ha : ∀ l, (name :: l).count "mcq" = a + l.count "mcq")
    (hb : ∀ l, (name :: l).count "single_choice" = b + l.count "single_choice") :
    AgreeAfter n m (name :: kinds) ↔ AgreeAfter (n + a) (m + b) kinds := by
  have hFirst : ¬ ∀ other ∈ (name :: kinds).head?, other ∈ sharedKinds :=
    fun h => hShared (h name rfl)
  unfold AgreeAfter
  rw [forall_append_cons, List.mem_cons, List.mem_cons]
  simp only [ha, hb, hMultiple, hWriting, false_or, Nat.add_assoc]
  exact and_congr_right fun _ => and_congr_right fun _ =>
    and_iff_right fun hHead => absurd hHead hFirst

/-- A name that only the stored table knows, and a kind that the other table never makes. -/
theorem stored_kind (hOnly : name = "multiple_choice" ∨ name = "writing") :
    dbStringToKind name ≠ .unspecified ∧ dbStringToKind name ≠ .singleChoice ∧
      ∀ other, transcriptKind other ≠ dbStringToKind name := by
  rcases hOnly with rfl | rfl
  · exact ⟨by decide, by decide, fun other => (transcriptKind_ne other).1⟩
  · exact ⟨by decide, by decide, fun other => (transcriptKind_ne other).2⟩

theorem knownKinds_ne_of_stored (hOnly : name = "multiple_choice" ∨ name = "writing")
    (n m : Nat) : List.replicate n .singleChoice ++ knownKinds dbStringToKind (name :: kinds) ≠
      List.replicate m .singleChoice ++ knownKinds transcriptKind (name :: kinds) := by
  obtain ⟨hKnown, hSingle, hNever⟩ := stored_kind hOnly
  intro hEq
  have hMem : dbStringToKind name ∈ List.replicate m .singleChoice ++
      knownKinds transcriptKind (name :: kinds) := by
    rw [← hEq, knownKinds_cons, if_neg hKnown]
    exact List.mem_append_right _ List.mem_cons_self
  simp only [knownKinds, List.mem_append, List.mem_replicate, List.mem_filter, List.mem_map]
    at hMem
  rcases hMem with ⟨-, hSame⟩ | ⟨⟨other, -, hSame⟩, -⟩
  · exact hSingle hSame
  · exact hNever other hSame

theorem not_agreeAfter_stored (hOnly : name = "multiple_choice" ∨ name = "writing") :
    ¬ AgreeAfter n m (name :: kinds) := by
  intro hAgree
  rcases hOnly with rfl | rfl
  · exact hAgree.1 List.mem_cons_self
  · exact hAgree.2.1 List.mem_cons_self

/-- The kinds that the tables make are the same ones just when the names agree. -/
theorem knownKinds_eq_iff (n m : Nat) (kinds : List String) :
    List.replicate n .singleChoice ++ knownKinds dbStringToKind kinds =
      List.replicate m .singleChoice ++ knownKinds transcriptKind kinds ↔
    AgreeAfter n m kinds := by
  induction kinds generalizing n m with
  | nil =>
    rw [agreeAfter_nil]
    refine ⟨fun h => ?_, fun h => by rw [h]; rfl⟩
    simpa [knownKinds] using congrArg List.length h
  | cons name kinds ih =>
    by_cases hShared : name ∈ sharedKinds
    · obtain ⟨hSame, hKnown, hOther⟩ := sharedKinds_spec hShared
      rw [knownKinds_cons, knownKinds_cons, hSame, if_neg hKnown, if_neg hKnown,
        replicate_append_cons hOther, agreeAfter_shared hShared, ← ih 0 0]
      rfl
    · by_cases hNamed : name ∈ ["mcq", "single_choice", "multiple_choice", "writing"]
      · simp only [List.mem_cons, List.not_mem_nil, or_false] at hNamed
        rcases hNamed with rfl | rfl | hOnly
        · rw [knownKinds_cons, knownKinds_cons,
            agreeAfter_cons hShared (by decide) (by decide) (a := 1) (b := 0)
            (fun l => by rw [List.count_cons_self, Nat.add_comm])
            (fun l => by rw [List.count_cons_of_ne (by decide), Nat.zero_add]), ← ih]
          exact iff_of_eq (congrArg (· = _) (replicate_append_cons_self _ n _))
        · rw [knownKinds_cons, knownKinds_cons,
            agreeAfter_cons hShared (by decide) (by decide) (a := 0) (b := 1)
            (fun l => by rw [List.count_cons_of_ne (by decide), Nat.zero_add])
            (fun l => by rw [List.count_cons_self, Nat.add_comm]), ← ih]
          exact iff_of_eq (congrArg (_ = ·) (replicate_append_cons_self _ m _))
        · -- the kind is on the one side only
          exact iff_of_false (knownKinds_ne_of_stored hOnly n m) (not_agreeAfter_stored hOnly)
      · obtain ⟨hStored, hTranscript⟩ := unknown_kinds hShared hNamed
        simp only [List.mem_cons, List.not_mem_nil, or_false, not_or] at hNamed
        obtain ⟨hMcq, hSingle, hMultiple, hWriting⟩ := hNamed
        rw [knownKinds_cons, knownKinds_cons, if_pos hStored, if_pos hTranscript,
          agreeAfter_cons hShared (Ne.symm hMultiple)
          (Ne.symm hWriting) (a := 0) (b := 0)
          (fun l => by rw [List.count_cons_of_ne hMcq, Nat.zero_add])
          (fun l => by rw [List.count_cons_of_ne hSingle, Nat.zero_add])]
        exact ih n m

theorem kindsAgree_iff : KindsAgree kinds ↔ AgreeAfter 0 0 kinds := by
  simp only [KindsAgree, AgreeAfter, Nat.zero_add]

end Tables

/-- Two tables decode a document to the same configuration just when they know the same of its
kinds. -/
theorem decodeInteractionConfig_eq_iff (f g : String → InteractionKind) (data : Option Json) :
    decodeInteractionConfig f data = decodeInteractionConfig g data ↔
      ∀ raw, data.bind (interactionConfigJSON {}) = some raw →
        knownKinds f raw.kinds.elems = knownKinds g raw.kinds.elems := by
  cases data with
  | none => simp [decodeInteractionConfig]
  | some j =>
    cases hRaw : interactionConfigJSON {} j with
    | none => simp [decodeInteractionConfig, hRaw]
    | some raw =>
      simp only [decodeInteractionConfig, hRaw, Option.bind_eq_bind, Option.bind_some,
        Option.some.injEq, forall_eq']
      by_cases hEmpty : raw.count = 0 ∧ raw.kinds.elems = [] ∧ raw.strategy = ""
      · rw [if_pos hEmpty, if_pos hEmpty, hEmpty.2.1]
        exact iff_of_true rfl rfl
      · rw [if_neg hEmpty, if_neg hEmpty]
        constructor
        · intro h
          exact congrArg ChunkInteractionConfig.kinds (Option.some_inj.mp h)
        · intro h
          exact congrArg (fun kinds => some (ChunkInteractionConfig.mk raw.count kinds
            (strategyFromString raw.strategy))) h

section RoundTrip

variable {cfg : ChunkInteractionConfig}

theorem strategyFromString_strategyToString (strategy : GenerationStrategy) :
    strategyFromString (strategyToString strategy) = strategy := by
  cases strategy <;> rfl

theorem strategyToString_eq_empty {strategy : GenerationStrategy} :
    strategyToString strategy = "" ↔ strategy = .unspecified := by
  cases strategy <;> decide

theorem knownKinds_kindToDBString {kinds : List InteractionKind}
    (h : ∀ k ∈ kinds, k ≠ .unspecified) :
    knownKinds dbStringToKind (kinds.map kindToDBString) = kinds := by
  have hMap : (kinds.map kindToDBString).map dbStringToKind = kinds := by
    rw [List.map_map]
    exact (List.map_congr_left fun k _ => dbStringToKind_kindToDBString k).trans (List.map_id _)
  rw [knownKinds, hMap, List.filter_eq_self]
  exact fun k hk => decide_eq_true (h k hk)

/-- What the encoder writes decodes to what it was written from. -/
theorem interactionConfigJSON_marshal {count : Int} (h : FitsInt 32 count) (kinds : List String)
    (strategy : String) :
    interactionConfigJSON {} (.obj (omitEmpty "count" 0 marshalInt count ++
      omitEmpty "kinds" [] marshalStrings kinds ++ omitEmpty "strategy" "" .str strategy)) =
      some ⟨count, ⟨kinds, []⟩, strategy⟩ := by
  apply Reads.struct
  refine .append (.append (reads_omitEmpty rfl (int_marshalInt h) rfl ?_)
    (reads_omitEmpty rfl (strings_marshalStrings kinds) rfl ?_)) (reads_omitEmpty rfl rfl rfl ?_)
  all_goals
    intro hZero
    rw [hZero]
  rfl

/-- A configuration comes back, unless it says nothing. -/
theorem interactionConfigFromJSON_toJSON (hCount : FitsInt 32 cfg.count)
    (hKinds : ∀ k ∈ cfg.kinds, k ≠ .unspecified) :
    interactionConfigFromJSON (interactionConfigToJSON (some cfg)) =
      if cfg = ⟨0, [], .unspecified⟩ then none else some cfg := by
  have hEmpty : (cfg.count = 0 ∧ cfg.kinds.map kindToDBString = [] ∧
      strategyToString cfg.strategy = "") ↔ cfg = ⟨0, [], .unspecified⟩ := by
    rw [List.map_eq_nil_iff, strategyToString_eq_empty]
    cases cfg
    simp
  by_cases h : cfg = ⟨0, [], .unspecified⟩
  · rw [if_pos h, interactionConfigToJSON]
    simp only [Option.bind_eq_bind, Option.bind_some]
    rw [if_pos (hEmpty.mpr h)]
    rfl
  · have hSays := mt hEmpty.mp h
    rw [if_neg h, interactionConfigToJSON]
    simp only [Option.bind_eq_bind, Option.bind_some]
    rw [if_neg hSays]
    simp only [interactionConfigFromJSON, decodeInteractionConfig, Option.bind_eq_bind,
      Option.pure_def, Option.bind_some, interactionConfigJSON_marshal hCount]
    rw [if_neg hSays]
    have hKnown := knownKinds_kindToDBString hKinds
    unfold knownKinds at hKnown
    rw [hKnown, strategyFromString_strategyToString]

end RoundTrip

/-- The decoders of a document make the same configuration of it just when its kinds agree, and a
configuration with known kinds comes back from the encoder just when it says something. -/
theorem interactionConfigs_agree_iff (data : Option Json) (cfg : Option ChunkInteractionConfig) :
    ((parseInteractionConfig data = interactionConfigFromJSON data ∧
      Generation.interactionConfigFromJSON data = interactionConfigFromJSON data) ↔
        ConfigAgrees data) ∧
    ((∀ c ∈ cfg, FitsInt 32 c.count ∧ ∀ k ∈ c.kinds, k ≠ .unspecified) →
      (interactionConfigFromJSON (interactionConfigToJSON cfg) = cfg ↔
        cfg ≠ some ⟨0, [], .unspecified⟩)) := by
  constructor
  · have hSame : Generation.interactionConfigFromJSON data = interactionConfigFromJSON data := rfl
    rw [and_iff_left hSame, eq_comm, parseInteractionConfig_eq, interactionConfigFromJSON,
      decodeInteractionConfig_eq_iff, ConfigAgrees]
    refine forall₂_congr fun raw _ => ?_
    rw [kindsAgree_iff, ← knownKinds_eq_iff]
    rfl
  · intro hKnown
    rcases cfg with _ | c
    · exact iff_of_true rfl nofun
    · obtain ⟨hCount, hKinds⟩ := hKnown c rfl
      rw [interactionConfigFromJSON_toJSON hCount hKinds, ne_eq, Option.some.injEq]
      split
      · next h => exact iff_of_false nofun (not_not_intro h)
      · next h => exact iff_of_true rfl h

theorem interactionConfigs_agree_iff_reading :
    parseInteractionConfig (some (.obj [("kinds", .arr [.str "reading"])])) =
      interactionConfigFromJSON (some (.obj [("kinds", .arr [.str "reading"])])) ∧
    interactionConfigFromJSON (interactionConfigToJSON
      (some ⟨3, [.singleChoice, .writing], .evenDistribution⟩)) =
        some ⟨3, [.singleChoice, .writing], .evenDistribution⟩ := by
  refine ⟨((interactionConfigs_agree_iff _ none).1.mpr fun raw hRaw => ?_).1,
    ((interactionConfigs_agree_iff none _).2 ?_).mpr (by decide)⟩
  · cases hRaw
    refine kindsAgree_iff.mpr ((agreeAfter_shared (by decide)).mpr ⟨rfl, agreeAfter_nil.mpr rfl⟩)
  · rintro c ⟨⟩
    exact ⟨by decide, by decide⟩

/-- A teacher chooses single choice, and the chunk that `transcript` sends says nothing of it. -/
theorem transcript_drops_single_choice :
    interactionConfigToJSON (some ⟨0, [.singleChoice], .unspecified⟩) =
      some (.obj [("kinds", .arr [.str "mcq"])]) ∧
    interactionConfigFromJSON (some (.obj [("kinds", .arr [.str "mcq"])])) =
      some ⟨0, [.singleChoice], .unspecified⟩ ∧
    parseInteractionConfig (some (.obj [("kinds", .arr [.str "mcq"])])) =
      some ⟨0, [], .unspecified⟩ ∧
    parseInteractionConfig (some (.obj [("kinds", .arr [.str "mcq"])])) ≠
      interactionConfigFromJSON (some (.obj [("kinds", .arr [.str "mcq"])])) :=
  ⟨rfl, rfl, rfl, by decide +kernel⟩

end Richter.Courses
