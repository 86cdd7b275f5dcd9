import Richter.Interactions.Mapper
import Richter.Lib.Tally
import Richter.Lib.Unmarshal

/-! How often each option of the single choice questions of a lesson was chosen
(`optionStatsByInteraction` of `analytics_queries.go`): every option of a question's configuration,
and then the chosen options that the configuration does not have. -/

namespace Richter.Interactions

open Lib

/-- A row of `LessonMcqOptionDistribution`. -/
structure OptionDistributionRow (κ : Type) where
  interactionID : κ
  optionIndex : Int
  chosenCount : Int

/-- The column `config` of an interaction.  A value of a column is shorter than `2 ^ 30` bytes, and
so is every array in it. -/
structure ConfigColumn where
  /-- What the bytes are as JSON, where they are. -/
  json : Option Json
  short : ∀ entries, json = some (.obj entries) → ∀ e ∈ entries, ∀ items,
    e.2 = .arr items → items.length ≤ 2 ^ 30

/-- The message `McqOptionStat`. -/
structure McqOptionStat where
  optionIndex : Int
  optionText : String := ""
  chosenCount : Int := 0
  isCorrect : Bool := false
  deriving DecidableEq, Repr

namespace Unmarshal

/-- The decoding of a `singleChoiceConfig`, with the fields that fit where others do not. -/
def singleChoiceFields : List (FillField SingleChoiceConfig) :=
  [.of "options" strings ((Filler.ofDecoder .string).slice "")
      ((Filler.ofDecoder_completes .string).slice "") (·.options) fun c x =>
        { c with options := x },
    .of "correct_answer" (.int 64) (.ofDecoder (.int 64)) (Filler.ofDecoder_completes (.int 64))
      (·.correctAnswer) fun c x => { c with correctAnswer := x }]

theorem singleChoiceConfig_eq :
    singleChoiceConfig = Decoder.struct (singleChoiceFields.map (·.toField)) := rfl

end Unmarshal

open Unmarshal (SingleChoiceConfig)

variable {κ : Type}

/-- The `cfg` of an interaction: it stays as it was before where there is no interaction or no JSON,
and decodes as far as the JSON fits otherwise. -/
def optionConfig (interactions : κ → Option ConfigColumn) (id : κ) : SingleChoiceConfig :=
  let cfg : SingleChoiceConfig := { correctAnswer := -1 }
  match (interactions id).bind (·.json) with
  | some j => Filler.struct Unmarshal.singleChoiceFields cfg j
  | none => cfg

/-- The indices that are emitted for the options, and the options. -/
def optionEntries (cfg : SingleChoiceConfig) (chosen : Int → Int) : List McqOptionStat :=
  cfg.options.elems.zipIdx.map fun p =>
    let idx := toInt32 p.2
    { optionIndex := idx, optionText := p.1, chosenCount := chosen idx,
      isCorrect := p.2 = cfg.correctAnswer }

/-- The options of one interaction, from its rows. -/
def optionStats (cfg : SingleChoiceConfig) (rs : List (OptionDistributionRow κ)) :
    List McqOptionStat :=
  let chosen := rs.foldl (record (·.optionIndex) (·.chosenCount)) fun _ => 0
  let opts := optionEntries cfg chosen
  let seen (idx : Int) : Bool := opts.any fun o => o.optionIndex = idx
  opts ++ (rs.filter fun r => !seen r.optionIndex).map fun r =>
    { optionIndex := r.optionIndex, chosenCount := r.chosenCount }

variable [DecidableEq κ]

/-- `optionStatsByInteraction`.  The map has an entry for each interaction with a row. -/
def optionStatsByInteraction (rows : List (OptionDistributionRow κ))
    (interactions : κ → Option ConfigColumn) (id : κ) : Option (List McqOptionStat) :=
  let grouped := rows.foldl (collect (·.interactionID)) fun _ => []
  if grouped id = [] then none else some (optionStats (optionConfig interactions id) (grouped id))

variable {rows rs : List (OptionDistributionRow κ)} {interactions : κ → Option ConfigColumn}
  {cfg : SingleChoiceConfig} {id : κ}

omit [DecidableEq κ] in
/-- A configuration that parses is the one that the options are of. -/
theorem optionConfig_of_parses {c : ConfigColumn} {j : Json} (hRow : interactions id = some c)
    (hJson : c.json = some j)
    (h : Unmarshal.singleChoiceConfig { correctAnswer := -1 } j = some cfg) :
    optionConfig interactions id = cfg := by
  rw [Unmarshal.singleChoiceConfig_eq] at h
  simpa [optionConfig, hRow, hJson] using Filler.struct_completes _ h

omit [DecidableEq κ] in
theorem length_options_le (interactions : κ → Option ConfigColumn) (id : κ) :
    (optionConfig interactions id).options.elems.length ≤ 2 ^ 30 := by
  unfold optionConfig
  cases hRow : interactions id with
  | none => simp [Slice.nil]
  | some c =>
    cases hJson : c.json with
    | none => simp [hJson, Slice.nil]
    | some j =>
      simp only [Option.bind_some, hJson]
      refine Filler.struct_induction (P := fun cfg : SingleChoiceConfig =>
        cfg.options.elems.length ≤ 2 ^ 30) (by simp [Slice.nil]) ?_
      intro f hf entries hObj e he cfg hLen
      rcases List.mem_pair.mp hf with rfl | rfl
      · exact Filler.length_slice_le _ _ hLen fun items hItems =>
          c.short entries (hObj ▸ hJson) e he items hItems
      · exact hLen

theorem grouped_eq (rows : List (OptionDistributionRow κ)) (id : κ) :
    rows.foldl (collect (·.interactionID)) (fun _ => []) id =
      rows.filter fun r => r.interactionID = id := by
  rw [foldl_collect, List.nil_append]

/-- The rows of one interaction have different options. -/
theorem nodup_optionIndex (h : (rows.map fun r => (r.interactionID, r.optionIndex)).Nodup)
    (id : κ) : ((rows.filter fun r => r.interactionID = id).map (·.optionIndex)).Nodup := by
  have hSub := ((rows.filter_sublist (p := fun r => decide (r.interactionID = id))).map
    fun r => (r.interactionID, r.optionIndex))
  have hPairs : (rows.filter fun r => r.interactionID = id).map
      (fun r => (r.interactionID, r.optionIndex)) =
      ((rows.filter fun r => r.interactionID = id).map (·.optionIndex)).map fun i => (id, i) := by
    rw [List.map_map]
    refine List.map_congr_left fun r hr => ?_
    have hId : r.interactionID = id := by simpa using (List.mem_filter.mp hr).2
    simp [hId]
  have hNodup := h.sublist hSub
  rw [hPairs] at hNodup
  exact hNodup.of_map _

theorem toInt32_natCast {i : ℕ} (h : i < 2 ^ 31) : toInt32 (i : Int) = i := by
  have hSmall : (i : Int) < 2 ^ 31 := by exact_mod_cast h
  exact toInt32_of_lt (by omega) hSmall

/-- The indices of the options. -/
def optionIndices (cfg : SingleChoiceConfig) : List Int :=
  (List.range cfg.options.elems.length).map fun i : ℕ => (i : Int)

theorem nodup_optionIndices (cfg : SingleChoiceConfig) : (optionIndices cfg).Nodup :=
  List.nodup_range.map fun _ _ h => Int.ofNat_inj.mp h

/-- An index that is no option's is negative, or too great. -/
theorem not_mem_optionIndices {i : Int} :
    i ∉ optionIndices cfg ↔ i < 0 ∨ (cfg.options.elems.length : Int) ≤ i := by
  constructor
  · intro hOut
    by_contra hIn
    refine hOut (List.mem_map.mpr ⟨i.toNat, List.mem_range.mpr ?_, ?_⟩)
    · omega
    · show (i.toNat : Int) = i
      omega
  · intro hOut hMem
    obtain ⟨k, hk, rfl⟩ := List.mem_map.mp hMem
    have := List.mem_range.mp hk
    omega

theorem optionEntries_index (hLen : cfg.options.elems.length ≤ 2 ^ 30) (chosen : Int → Int) :
    (optionEntries cfg chosen).map (·.optionIndex) = optionIndices cfg := by
  have hRange : cfg.options.elems.zipIdx.map Prod.snd = List.range cfg.options.elems.length := by
    rw [List.zipIdx_map_snd, List.range_eq_range']
  rw [optionIndices, ← hRange, optionEntries, List.map_map, List.map_map]
  refine List.map_congr_left fun p hp => ?_
  have hLt : p.2 < cfg.options.elems.length := List.snd_lt_of_mem_zipIdx hp
  have hIdx : toInt32 (p.2 : Int) = p.2 := toInt32_natCast (by omega)
  rw [Function.comp_apply, Function.comp_apply, hIdx]

theorem optionEntries_options (hLen : cfg.options.elems.length ≤ 2 ^ 30) (chosen : Int → Int) :
    (optionEntries cfg chosen).map (fun o => (o.optionIndex, o.optionText, o.isCorrect)) =
      cfg.options.elems.zipIdx.map fun p =>
        ((p.2 : Int), p.1, decide (p.2 = cfg.correctAnswer)) := by
  rw [optionEntries, List.map_map]
  refine List.map_congr_left fun p hp => ?_
  have hLt : p.2 < cfg.options.elems.length := List.snd_lt_of_mem_zipIdx hp
  have hIdx : toInt32 (p.2 : Int) = p.2 := toInt32_natCast (by omega)
  simp only [Function.comp_apply, hIdx]

theorem chosenCount_eq {chosen : Int → Int} {o : McqOptionStat} (h : o ∈ optionEntries cfg chosen) :
    o.chosenCount = chosen o.optionIndex := by
  obtain ⟨p, -, rfl⟩ := List.mem_map.mp h
  dsimp only

/-- What the statistics of an interaction are, with the rows `rs`: `listed` for the options of its
configuration, and `left` for the other ones that were chosen. -/
structure IsOptionStats (cfg : SingleChoiceConfig) (rs : List (OptionDistributionRow κ))
    (listed left : List McqOptionStat) : Prop where
  options : listed.map (fun o => (o.optionIndex, o.optionText, o.isCorrect)) =
    cfg.options.elems.zipIdx.map fun p => ((p.2 : Int), p.1, decide (p.2 = cfg.correctAnswer))
  outside : left = (rs.filter fun r =>
    r.optionIndex < 0 ∨ (cfg.options.elems.length : Int) ≤ r.optionIndex).map fun r =>
      { optionIndex := r.optionIndex, chosenCount := r.chosenCount }
  once : ((listed ++ left).map (·.optionIndex)).Nodup
  counts : ∀ r ∈ rs, ∃ o ∈ listed ++ left,
    o.optionIndex = r.optionIndex ∧ o.chosenCount = r.chosenCount
  sum : ((listed ++ left).map (·.chosenCount)).sum = (rs.map (·.chosenCount)).sum

omit [DecidableEq κ] in
/-- The rows that are left over are those of no option. -/
theorem optionStats_eq (hLen : cfg.options.elems.length ≤ 2 ^ 30)
    (rs : List (OptionDistributionRow κ)) :
    optionStats cfg rs =
      optionEntries cfg (rs.foldl (record (·.optionIndex) (·.chosenCount)) fun _ => 0) ++
        (rs.filter fun r => r.optionIndex ∉ optionIndices cfg).map fun r =>
          { optionIndex := r.optionIndex, chosenCount := r.chosenCount } := by
  unfold optionStats
  dsimp only
  congr 2
  refine List.filter_congr fun r _ => ?_
  rw [← optionEntries_index hLen
    (rs.foldl (record (·.optionIndex) (·.chosenCount)) fun _ => 0), Bool.eq_iff_iff]
  simp [List.mem_map]

omit [DecidableEq κ] in
theorem optionStats_isOptionStats (hLen : cfg.options.elems.length ≤ 2 ^ 30)
    (hRows : (rs.map (·.optionIndex)).Nodup) :
    ∃ listed left, optionStats cfg rs = listed ++ left ∧ IsOptionStats cfg rs listed left := by
  set chosen := rs.foldl (record (·.optionIndex) (·.chosenCount)) fun _ => 0 with hChosen
  have hIndex := optionEntries_index hLen chosen
  refine ⟨_, _, optionStats_eq hLen rs, ?_⟩
  constructor
  case options => exact optionEntries_options hLen _
  case outside => simp only [not_mem_optionIndices]
  case once =>
    rw [List.map_append, hIndex, List.map_map]
    refine (nodup_optionIndices cfg).append (hRows.sublist (List.filter_sublist.map _)) ?_
    intro i hi hi'
    obtain ⟨r, hr, rfl⟩ := List.mem_map.mp hi'
    exact of_decide_eq_true (List.mem_filter.mp hr).2 hi
  case counts =>
    intro r hr
    by_cases hIn : r.optionIndex ∈ optionIndices cfg
    · rw [← hIndex] at hIn
      obtain ⟨o, ho, hEq⟩ := List.mem_map.mp hIn
      refine ⟨o, List.mem_append_left _ ho, hEq, ?_⟩
      rw [chosenCount_eq ho, hEq]
      exact foldl_record_of_mem _ hRows hr
    · refine ⟨_, List.mem_append_right _ (List.mem_map.mpr ⟨r, ?_, rfl⟩), rfl, rfl⟩
      exact List.mem_filter.mpr ⟨hr, decide_eq_true hIn⟩
  case sum =>
    have hListed : (optionEntries cfg chosen).map (·.chosenCount) =
        (optionIndices cfg).map chosen := by
      rw [← hIndex, List.map_map]
      exact List.map_congr_left fun o ho => chosenCount_eq ho
    rw [List.map_append, List.sum_append, hListed, hChosen,
      sum_foldl_record _ hRows (nodup_optionIndices cfg), List.map_map]
    exact List.sum_map_filter_add_sum_map_filter_not _ _ rs

/-- No answer is lost and none is counted twice: each interaction with rows is listed with every
option of its configuration in their order, and with every other index that was chosen, and the
counts add up to those of its rows.  A configuration that parses is taken as it parses. -/
theorem optionStatsByInteraction_lossless (rows : List (OptionDistributionRow κ))
    (interactions : κ → Option ConfigColumn)
    (hRows : (rows.map fun r => (r.interactionID, r.optionIndex)).Nodup) (id : κ) :
    let rs := rows.filter fun r => r.interactionID = id
    (rs = [] ∧ optionStatsByInteraction rows interactions id = none) ∨
      ∃ listed left, optionStatsByInteraction rows interactions id = some (listed ++ left) ∧
        IsOptionStats (optionConfig interactions id) rs listed left ∧
        ∀ c j cfg, interactions id = some c → c.json = some j →
          Unmarshal.singleChoiceConfig { correctAnswer := -1 } j = some cfg →
            IsOptionStats cfg rs listed left := by
  intro rs
  simp only [optionStatsByInteraction, grouped_eq]
  by_cases hEmpty : rs = []
  · exact .inl ⟨hEmpty, if_pos hEmpty⟩
  · refine .inr ?_
    obtain ⟨listed, left, hEq, hStats⟩ := optionStats_isOptionStats
      (length_options_le interactions id) (nodup_optionIndex hRows id)
    refine ⟨listed, left, by rw [← hEq]; exact if_neg hEmpty, hStats,
      fun c j cfg hRow hJson hParses => ?_⟩
    exact optionConfig_of_parses hRow hJson hParses ▸ hStats

/-- The column of a question with the options `texts`. -/
def ConfigColumn.ofOptions (texts : List String) (correct : Int) (h : texts.length ≤ 2 ^ 30) :
    ConfigColumn where
  json := some (.obj [("options", .arr (texts.map .str)), ("correct_answer", .num correct 0)])
  short := by
    intro entries hEntries e he items hItems
    cases hEntries
    rcases List.mem_pair.mp he with rfl | rfl
    · cases hItems
      rwa [List.length_map]
    · cases hItems

/-- One question whose second option is correct, and one without an interaction. -/
def sampleColumns (id : ℕ) : Option ConfigColumn :=
  if id = 1 then some (.ofOptions ["go", "went"] 1 (by decide)) else none

def sampleRows : List (OptionDistributionRow ℕ) := [⟨1, 0, 3⟩, ⟨1, 7, 2⟩, ⟨2, 1, 5⟩]

theorem optionStatsByInteraction_sample :
    ∃ listed left, optionStatsByInteraction sampleRows sampleColumns 1 = some (listed ++ left) ∧
      IsOptionStats ⟨⟨["go", "went"], []⟩, 1⟩
        (sampleRows.filter fun r => r.interactionID = 1) listed left := by
  have h := optionStatsByInteraction_lossless sampleRows sampleColumns (by decide) 1
  obtain ⟨listed, left, hStats, -, hParses⟩ :=
    h.resolve_left fun hNone => absurd hNone.1 (by simp [sampleRows])
  exact ⟨listed, left, hStats, hParses _ _ _ rfl rfl rfl⟩

example : optionStatsByInteraction sampleRows sampleColumns 1 =
    some [⟨0, "go", 3, false⟩, ⟨1, "went", 0, true⟩, ⟨7, "", 2, false⟩] := by decide

end Richter.Interactions
