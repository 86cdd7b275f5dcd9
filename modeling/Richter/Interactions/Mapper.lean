import Richter.Interactions.Config
import Richter.Lib.Json

/-! From a row of `lesson_interactions` to the message that a client gets (`mapper.go` of
`internal/svc/interactions` and the `ApplyConfig` of the handlers): the column `config` is JSON,
which the handler of the row's kind decodes, and a message for a student leaves out the answers. -/

namespace Richter.Interactions

open Lib

namespace Unmarshal

/-! The structs that the handlers decode a configuration into. -/

structure SingleChoiceConfig where
  options : Slice String := .nil
  correctAnswer : Int := 0

structure MultipleChoiceConfig where
  options : Slice String := .nil
  correctAnswers : Slice Int := .nil

structure BlankJSON where
  accepted : Slice String := .nil
  caseSensitive : Bool := false
  hint : String := ""

structure FillBlankConfigJSON where
  template : String := ""
  blanks : Slice BlankJSON := .nil

structure NestedMcqConfigJSON where
  question : String := ""
  options : Slice String := .nil
  correctAnswer : Int := 0

structure ListeningConfigJSON where
  audioObjectKey : String := ""
  audioSourceText : String := ""
  durationSeconds : Int := 0
  comprehensionQuestions : Slice NestedMcqConfigJSON := .nil

structure ReadingConfigJSON where
  mode : String := ""
  passageMarkdown : String := ""
  question : String := ""
  expectedAnswer : String := ""

structure WritingConfigJSON where
  prompt : String := ""
  rubric : String := ""
  expectedAnswer : String := ""
  minWords : Int := 0

def strings : Decoder (Slice String) := Decoder.string.slice ""

def singleChoiceConfig : Decoder SingleChoiceConfig :=
  .struct [
    .of "options" strings (·.options) fun c x => { c with options := x },
    .of "correct_answer" (.int 64) (·.correctAnswer) fun c x => { c with correctAnswer := x }]

def multipleChoiceConfig : Decoder MultipleChoiceConfig :=
  .struct [
    .of "options" strings (·.options) fun c x => { c with options := x },
    .of "correct_answers" ((Decoder.int 64).slice 0) (·.correctAnswers) fun c x =>
      { c with correctAnswers := x }]

def blankJSON : Decoder BlankJSON :=
  .struct [
    .of "accepted" strings (·.accepted) fun b x => { b with accepted := x },
    .of "case_sensitive" .bool (·.caseSensitive) fun b x => { b with caseSensitive := x },
    .of "hint" .string (·.hint) fun b x => { b with hint := x }]

def fillBlankConfigJSON : Decoder FillBlankConfigJSON :=
  .struct [
    .of "template" .string (·.template) fun c x => { c with template := x },
    .of "blanks" (blankJSON.slice {}) (·.blanks) fun c x => { c with blanks := x }]

def nestedMcqConfigJSON : Decoder NestedMcqConfigJSON :=
  .struct [
    .of "question" .string (·.question) fun q x => { q with question := x },
    .of "options" strings (·.options) fun q x => { q with options := x },
    .of "correct_answer" (.int 64) (·.correctAnswer) fun q x => { q with correctAnswer := x }]

def listeningConfigJSON : Decoder ListeningConfigJSON :=
  .struct [
    .of "audio_object_key" .string (·.audioObjectKey) fun c x => { c with audioObjectKey := x },
    .of "audio_source_text" .string (·.audioSourceText) fun c x => { c with audioSourceText := x },
    .of "duration_seconds" (.int 32) (·.durationSeconds) fun c x => { c with durationSeconds := x },
    .of "comprehension_questions" (nestedMcqConfigJSON.slice {}) (·.comprehensionQuestions)
      fun c x => { c with comprehensionQuestions := x }]

def readingConfigJSON : Decoder ReadingConfigJSON :=
  .struct [
    .of "mode" .string (·.mode) fun c x => { c with mode := x },
    .of "passage_markdown" .string (·.passageMarkdown) fun c x => { c with passageMarkdown := x },
    .of "question" .string (·.question) fun c x => { c with question := x },
    .of "expected_answer" .string (·.expectedAnswer) fun c x => { c with expectedAnswer := x }]

def writingConfigJSON : Decoder WritingConfigJSON :=
  .struct [
    .of "prompt" .string (·.prompt) fun c x => { c with prompt := x },
    .of "rubric" .string (·.rubric) fun c x => { c with rubric := x },
    .of "expected_answer" .string (·.expectedAnswer) fun c x => { c with expectedAnswer := x },
    .of "min_words" (.int 32) (·.minWords) fun c x => { c with minWords := x }]

end Unmarshal

/-- `json.Unmarshal` of a configuration by the handler of a kind. -/
def unmarshalConfig (kind : InteractionKind) (config : Json) : Option ConfigJSON :=
  match kind with
  | .singleChoice => (Unmarshal.singleChoiceConfig {} config).map fun c =>
      .singleChoice c.options.elems c.correctAnswer
  | .multipleChoice => (Unmarshal.multipleChoiceConfig {} config).map fun c =>
      .multipleChoice c.options.elems c.correctAnswers.elems
  | .fillBlank => (Unmarshal.fillBlankConfigJSON {} config).map fun c =>
      .fillBlank c.template
        (c.blanks.elems.map fun b => ⟨b.accepted.elems, b.caseSensitive, b.hint⟩)
  | .listening => (Unmarshal.listeningConfigJSON {} config).map fun c =>
      .listening c.audioObjectKey c.audioSourceText c.durationSeconds
        (c.comprehensionQuestions.elems.map fun q => ⟨q.question, q.options.elems, q.correctAnswer⟩)
  | .reading => (Unmarshal.readingConfigJSON {} config).map fun c =>
      .reading c.mode c.passageMarkdown c.question c.expectedAnswer
  | .writing => (Unmarshal.writingConfigJSON {} config).map fun c =>
      .writing c.prompt c.rubric c.expectedAnswer c.minWords
  | .unspecified => none

theorem toInt32_of_fits {n : Int} (h : FitsInt 32 n) : toInt32 n = n := by
  unfold FitsInt at h
  apply Int.bmod_eq_of_le <;> omega

theorem toInt32_of_lt {n : Int} (hLow : 0 ≤ n) (hHigh : n < 2 ^ 31) : toInt32 n = n :=
  toInt32_of_fits ⟨by omega, hHigh⟩

theorem fitsInt_toInt32 (n : Int) : FitsInt 32 (toInt32 n) :=
  ⟨Int.le_bmod (by decide), Int.bmod_lt (by decide)⟩

def mcqConfigsFromJSON (qs : List NestedMcqConfigJSON) (stripAnswers : Bool) : List McqConfig :=
  qs.map fun q => ⟨q.question, q.options, if stripAnswers then -1 else toInt32 q.correctAnswer, []⟩

def readingModeFromString : String → ReadingMode
  | "open_answer" => .openAnswer
  | _ => .pronunciation

/-- `ApplyConfig` of a decoded configuration. -/
def ConfigJSON.apply (stripAnswers : Bool) : ConfigJSON → ConfigMessage
  | .singleChoice options correctAnswer =>
      .mcq ⟨"", options, if stripAnswers then -1 else toInt32 correctAnswer, []⟩
  | .multipleChoice options correctAnswers =>
      .mcq ⟨"", options, -1, if stripAnswers then [] else correctAnswers.map toInt32⟩
  | .fillBlank template blanks =>
      .fillBlank template (blanks.map fun b =>
        { b with accepted := if stripAnswers then [] else b.accepted })
  | .listening audioObjectKey audioSourceText durationSeconds comprehensionQuestions =>
      .listening audioObjectKey durationSeconds (if stripAnswers then "" else audioSourceText)
        (mcqConfigsFromJSON comprehensionQuestions stripAnswers)
  | .reading mode passageMarkdown question expectedAnswer =>
      .reading (readingModeFromString mode) passageMarkdown question
        (if stripAnswers then "" else expectedAnswer)
  | .writing prompt rubric expectedAnswer minWords =>
      .writing prompt rubric (if stripAnswers then "" else expectedAnswer) minWords

/-- `ApplyConfig` of the handler of a kind: what it sets the message's `config` to.  There is none
when the configuration does not decode, or no handler. -/
def applyConfig (kind : InteractionKind) (config : Json) (stripAnswers : Bool) :
    Option ConfigMessage :=
  (unmarshalConfig kind config).map (ConfigJSON.apply stripAnswers)

/-- A row of `lesson_interactions`, with all its columns. -/
structure LessonInteractionRow where
  id : UUID
  lessonId : UUID
  chunkId : Option UUID
  kind : String
  startSeconds : ℚ
  orderIndex : Int
  prompt : String
  explanation : String
  config : Json
  maxScore : ℚ
  generatedBy : String
  createdAt : Option Nat

/-- The message `LessonInteraction`. -/
structure LessonInteractionMessage where
  id : UUID
  lessonId : UUID
  chunkId : Option UUID
  startSeconds : ℚ
  orderIndex : Int
  kind : InteractionKind
  prompt : String
  explanation : String
  maxScore : ℚ
  generatedBy : String
  createdAt : Option Nat
  config : Option ConfigMessage
  deriving DecidableEq

/-- `InteractionToProto`. -/
def interactionToProto (i : LessonInteractionRow) (stripAnswers : Bool) :
    LessonInteractionMessage where
  id := i.id
  lessonId := i.lessonId
  chunkId := i.chunkId
  startSeconds := i.startSeconds
  orderIndex := i.orderIndex
  kind := dbStringToKind i.kind
  prompt := i.prompt
  explanation := if stripAnswers then "" else i.explanation
  maxScore := i.maxScore
  generatedBy := i.generatedBy
  createdAt := i.createdAt
  config := applyConfig (dbStringToKind i.kind) i.config stripAnswers

section Stored

/-! The handlers read back what they write. -/

def marshalStrings (ss : List String) : Json := .arr (ss.map .str)

/-- An `omitempty` field. -/
def omitEmpty [DecidableEq α] (name : String) (zero : α) (enc : α → Json) (a : α) :
    List (String × Json) :=
  if a = zero then [] else [(name, enc a)]

def marshalInt (n : Int) : Json := .num n 0

def marshalBlank (b : Blank) : Json :=
  .obj ([("accepted", marshalStrings b.accepted)] ++
    omitEmpty "case_sensitive" false .bool b.caseSensitive ++ omitEmpty "hint" "" .str b.hint)

def marshalNestedMcq (q : NestedMcqConfigJSON) : Json :=
  .obj (omitEmpty "question" "" .str q.question ++
    [("options", marshalStrings q.options), ("correct_answer", marshalInt q.correctAnswer)])

/-- `json.Marshal` of a configuration. -/
def marshalConfig : ConfigJSON → Json
  | .singleChoice options correctAnswer =>
      .obj [("options", marshalStrings options), ("correct_answer", marshalInt correctAnswer)]
  | .multipleChoice options correctAnswers =>
      .obj [("options", marshalStrings options),
        ("correct_answers", .arr (correctAnswers.map marshalInt))]
  | .fillBlank template blanks =>
      .obj [("template", .str template), ("blanks", .arr (blanks.map marshalBlank))]
  | .listening audioObjectKey audioSourceText durationSeconds comprehensionQuestions =>
      .obj ([("audio_object_key", .str audioObjectKey)] ++
        omitEmpty "audio_source_text" "" .str audioSourceText ++
        omitEmpty "duration_seconds" 0 marshalInt durationSeconds ++
        omitEmpty "comprehension_questions" [] (fun qs => .arr (qs.map marshalNestedMcq))
          comprehensionQuestions)
  | .reading mode passageMarkdown question expectedAnswer =>
      .obj ([("mode", .str mode), ("passage_markdown", .str passageMarkdown)] ++
        omitEmpty "question" "" .str question ++
        omitEmpty "expected_answer" "" .str expectedAnswer)
  | .writing prompt rubric expectedAnswer minWords =>
      .obj ([("prompt", .str prompt)] ++ omitEmpty "rubric" "" .str rubric ++
        omitEmpty "expected_answer" "" .str expectedAnswer ++
        omitEmpty "min_words" 0 marshalInt minWords)

/-- The numbers of a configuration fit the integers of the program. -/
def ConfigJSON.Fits : ConfigJSON → Prop
  | .singleChoice _ correctAnswer => FitsInt 64 correctAnswer
  | .multipleChoice _ correctAnswers => ∀ n ∈ correctAnswers, FitsInt 64 n
  | .listening _ _ durationSeconds comprehensionQuestions =>
      FitsInt 32 durationSeconds ∧ ∀ q ∈ comprehensionQuestions, FitsInt 64 q.correctAnswer
  | .writing _ _ _ minWords => FitsInt 32 minWords
  | _ => True

theorem strings_marshalStrings (ss : List String) :
    Unmarshal.strings .nil (marshalStrings ss) = some ⟨ss, []⟩ := by
  have h : Decoder.string.slice "" .nil (.arr (ss.map .str)) = some ⟨ss.map id, []⟩ :=
    Decoder.slice_map fun _ _ => rfl
  rwa [List.map_id] at h

/-- A field that is left out keeps the zero value that the variable has before. -/
theorem reads_omitEmpty {β γ : Type} [DecidableEq β] {fields : List (Lib.Field γ)}
    {name name' : String} {zero x : β} {enc : β → Json} {α : Type} {d : Decoder α} {get : γ → α}
    {set : γ → α → γ} {y : α} {a b : γ}
    (hFind : (fields.find? fun f => foldName name = foldName f.name) =
      some (.of name' d get set))
    (hDecode : d (get a) (enc x) = some y) (hSet : set a y = b) (hZero : x = zero → b = a) :
    Reads fields a (omitEmpty name zero enc x) b := by
  unfold omitEmpty
  split
  · next h =>
    rw [hZero h]
    exact .nil
  · exact .cons hFind hDecode hSet .nil

theorem blankJSON_marshalBlank (b : Blank) :
    Unmarshal.blankJSON {} (marshalBlank b) = some ⟨⟨b.accepted, []⟩, b.caseSensitive, b.hint⟩ := by
  apply Reads.struct
  refine .append (.append (.cons rfl (strings_marshalStrings b.accepted) rfl .nil)
    (reads_omitEmpty rfl rfl rfl ?_)) (reads_omitEmpty rfl rfl rfl ?_)
  all_goals
    intro hZero
    rw [hZero]

theorem int_marshalInt {width : Nat} {n a : Int} (h : FitsInt width n) :
    Decoder.int width a (marshalInt n) = some n := by
  simp [marshalInt, Decoder.int, h]

theorem nestedMcqConfigJSON_marshalNestedMcq {q : NestedMcqConfigJSON}
    (h : FitsInt 64 q.correctAnswer) :
    Unmarshal.nestedMcqConfigJSON {} (marshalNestedMcq q) =
      some ⟨q.question, ⟨q.options, []⟩, q.correctAnswer⟩ := by
  apply Reads.struct
  refine .append (reads_omitEmpty rfl rfl rfl ?_)
    (.cons rfl (strings_marshalStrings q.options) rfl (.cons rfl (int_marshalInt h) rfl .nil))
  intro hZero
  rw [hZero]

theorem singleChoiceConfig_marshalConfig {options : List String} {correctAnswer : Int}
    (h : FitsInt 64 correctAnswer) :
    Unmarshal.singleChoiceConfig {} (marshalConfig (.singleChoice options correctAnswer)) =
      some ⟨⟨options, []⟩, correctAnswer⟩ := by
  apply Reads.struct
  exact .cons rfl (strings_marshalStrings options) rfl (.cons rfl (int_marshalInt h) rfl .nil)

theorem multipleChoiceConfig_marshalConfig {options : List String} {correctAnswers : List Int}
    (h : ∀ n ∈ correctAnswers, FitsInt 64 n) :
    Unmarshal.multipleChoiceConfig {} (marshalConfig (.multipleChoice options correctAnswers)) =
      some ⟨⟨options, []⟩, ⟨correctAnswers, []⟩⟩ := by
  have hAnswers : (Decoder.int 64).slice 0 .nil (.arr (correctAnswers.map marshalInt)) =
      some ⟨correctAnswers.map id, []⟩ :=
    Decoder.slice_map fun n hn => int_marshalInt (h n hn)
  rw [List.map_id] at hAnswers
  apply Reads.struct
  exact .cons rfl (strings_marshalStrings options) rfl (.cons rfl hAnswers rfl .nil)

theorem fillBlankConfigJSON_marshalConfig (template : String) (blanks : List Blank) :
    Unmarshal.fillBlankConfigJSON {} (marshalConfig (.fillBlank template blanks)) =
      some ⟨template, ⟨blanks.map fun b => ⟨⟨b.accepted, []⟩, b.caseSensitive, b.hint⟩, []⟩⟩ := by
  apply Reads.struct
  exact .cons rfl rfl rfl (.cons rfl
    (Decoder.slice_map fun b _ => blankJSON_marshalBlank b) rfl .nil)

theorem listeningConfigJSON_marshalConfig {audioObjectKey audioSourceText : String}
    {durationSeconds : Int} {comprehensionQuestions : List NestedMcqConfigJSON}
    (hDuration : FitsInt 32 durationSeconds)
    (hQuestions : ∀ q ∈ comprehensionQuestions, FitsInt 64 q.correctAnswer) :
    Unmarshal.listeningConfigJSON {} (marshalConfig
        (.listening audioObjectKey audioSourceText durationSeconds comprehensionQuestions)) =
      some ⟨audioObjectKey, audioSourceText, durationSeconds,
        ⟨comprehensionQuestions.map fun q => ⟨q.question, ⟨q.options, []⟩, q.correctAnswer⟩,
          []⟩⟩ := by
  apply Reads.struct
  refine .append (.append (.append (.cons rfl rfl rfl .nil) (reads_omitEmpty rfl rfl rfl ?_))
    (reads_omitEmpty rfl (int_marshalInt hDuration) rfl ?_))
    (reads_omitEmpty rfl (Decoder.slice_map fun q hq =>
      nestedMcqConfigJSON_marshalNestedMcq (hQuestions q hq)) rfl ?_)
  all_goals
    intro hZero
    rw [hZero]
  rfl

theorem readingConfigJSON_marshalConfig (mode passageMarkdown question expectedAnswer : String) :
    Unmarshal.readingConfigJSON {}
        (marshalConfig (.reading mode passageMarkdown question expectedAnswer)) =
      some ⟨mode, passageMarkdown, question, expectedAnswer⟩ := by
  apply Reads.struct
  refine .append (.append (.cons rfl rfl rfl (.cons rfl rfl rfl .nil))
    (reads_omitEmpty rfl rfl rfl ?_)) (reads_omitEmpty rfl rfl rfl ?_)
  all_goals
    intro hZero
    rw [hZero]

theorem writingConfigJSON_marshalConfig {prompt rubric expectedAnswer : String} {minWords : Int}
    (h : FitsInt 32 minWords) :
    Unmarshal.writingConfigJSON {}
        (marshalConfig (.writing prompt rubric expectedAnswer minWords)) =
      some ⟨prompt, rubric, expectedAnswer, minWords⟩ := by
  apply Reads.struct
  refine .append (.append (.append (.cons rfl rfl rfl .nil) (reads_omitEmpty rfl rfl rfl ?_))
    (reads_omitEmpty rfl rfl rfl ?_)) (reads_omitEmpty rfl (int_marshalInt h) rfl ?_)
  all_goals
    intro hZero
    rw [hZero]

/-- What a handler stores, it reads back. -/
theorem unmarshalConfig_marshalConfig {c : ConfigJSON} (h : c.Fits) :
    unmarshalConfig c.kind (marshalConfig c) = some c := by
  cases c with
  | singleChoice => exact Option.map_eq_some_iff.mpr ⟨_, singleChoiceConfig_marshalConfig h, rfl⟩
  | multipleChoice =>
    exact Option.map_eq_some_iff.mpr ⟨_, multipleChoiceConfig_marshalConfig h, rfl⟩
  | fillBlank template blanks =>
    refine Option.map_eq_some_iff.mpr ⟨_, fillBlankConfigJSON_marshalConfig template blanks, ?_⟩
    simp [Function.comp_def]
  | listening =>
    refine Option.map_eq_some_iff.mpr ⟨_, listeningConfigJSON_marshalConfig h.1 h.2, ?_⟩
    simp [Function.comp_def]
  | reading => exact Option.map_eq_some_iff.mpr ⟨_, readingConfigJSON_marshalConfig .., rfl⟩
  | writing => exact Option.map_eq_some_iff.mpr ⟨_, writingConfigJSON_marshalConfig h, rfl⟩

end Stored

section Answers

/-! A message for a student follows from what is left of a row without its answers. -/

def fillBlankAnswers : String → Option (Json → Json)
  | "blanks" => some (.mapItems (.without "accepted"))
  | _ => some id

def listeningAnswers : String → Option (Json → Json)
  | "audio_source_text" => none
  | "comprehension_questions" => some (.mapItems (.without "correct_answer"))
  | _ => some id

/-- A stored configuration without its answers. -/
def hideAnswers : InteractionKind → Json → Json
  | .singleChoice => .without "correct_answer"
  | .multipleChoice => .without "correct_answers"
  | .fillBlank => .editFields fillBlankAnswers
  | .listening => .editFields listeningAnswers
  | .reading | .writing => .without "expected_answer"
  | .unspecified => id

/-- A decoded configuration with zero values for its answers. -/
def ConfigJSON.withoutAnswers : ConfigJSON → ConfigJSON
  | .singleChoice options _ => .singleChoice options 0
  | .multipleChoice options _ => .multipleChoice options []
  | .fillBlank template blanks =>
      .fillBlank template (blanks.map fun b => { b with accepted := [] })
  | .listening audioObjectKey _ durationSeconds comprehensionQuestions =>
      .listening audioObjectKey "" durationSeconds
        (comprehensionQuestions.map fun q => { q with correctAnswer := 0 })
  | .reading mode passageMarkdown question _ => .reading mode passageMarkdown question ""
  | .writing prompt rubric _ minWords => .writing prompt rubric "" minWords

theorem apply_withoutAnswers (c : ConfigJSON) : c.withoutAnswers.apply true = c.apply true := by
  cases c <;> simp [ConfigJSON.withoutAnswers, ConfigJSON.apply, mcqConfigsFromJSON]

namespace Unmarshal

def SingleChoiceConfig.withoutAnswers (c : SingleChoiceConfig) : SingleChoiceConfig :=
  { c with correctAnswer := 0 }

def MultipleChoiceConfig.withoutAnswers (c : MultipleChoiceConfig) : MultipleChoiceConfig :=
  { c with correctAnswers := .nil }

def BlankJSON.withoutAnswers (b : BlankJSON) : BlankJSON := { b with accepted := .nil }

def FillBlankConfigJSON.withoutAnswers (c : FillBlankConfigJSON) : FillBlankConfigJSON :=
  { c with blanks := c.blanks.map BlankJSON.withoutAnswers }

def NestedMcqConfigJSON.withoutAnswers (q : NestedMcqConfigJSON) : NestedMcqConfigJSON :=
  { q with correctAnswer := 0 }

def ListeningConfigJSON.withoutAnswers (c : ListeningConfigJSON) : ListeningConfigJSON :=
  { c with
    audioSourceText := ""
    comprehensionQuestions := c.comprehensionQuestions.map NestedMcqConfigJSON.withoutAnswers }

def ReadingConfigJSON.withoutAnswers (c : ReadingConfigJSON) : ReadingConfigJSON :=
  { c with expectedAnswer := "" }

def WritingConfigJSON.withoutAnswers (c : WritingConfigJSON) : WritingConfigJSON :=
  { c with expectedAnswer := "" }

theorem hides_singleChoiceConfig :
    Hides singleChoiceConfig (.without "correct_answer") SingleChoiceConfig.withoutAnswers := by
  apply Hides.struct
  intro f hf
  simp only [List.mem_cons, List.not_mem_nil, or_false] at hf
  rcases hf with rfl | rfl
  · exact Hides.kept (Hides.refl _) (fun _ => rfl) fun _ _ => rfl
  · exact Hides.removed fun _ _ => rfl

theorem hides_multipleChoiceConfig :
    Hides multipleChoiceConfig (.without "correct_answers")
      MultipleChoiceConfig.withoutAnswers := by
  apply Hides.struct
  intro f hf
  simp only [List.mem_cons, List.not_mem_nil, or_false] at hf
  rcases hf with rfl | rfl
  · exact Hides.kept (Hides.refl _) (fun _ => rfl) fun _ _ => rfl
  · exact Hides.removed fun _ _ => rfl

theorem hides_blankJSON :
    Hides blankJSON (.without "accepted") BlankJSON.withoutAnswers := by
  apply Hides.struct
  intro f hf
  simp only [List.mem_cons, List.not_mem_nil, or_false] at hf
  rcases hf with rfl | rfl | rfl
  · exact Hides.removed fun _ _ => rfl
  · exact Hides.kept (Hides.refl _) (fun _ => rfl) fun _ _ => rfl
  · exact Hides.kept (Hides.refl _) (fun _ => rfl) fun _ _ => rfl

theorem hides_fillBlankConfigJSON :
    Hides fillBlankConfigJSON (.editFields fillBlankAnswers)
      FillBlankConfigJSON.withoutAnswers := by
  apply Hides.struct
  intro f hf
  simp only [List.mem_cons, List.not_mem_nil, or_false] at hf
  rcases hf with rfl | rfl
  · exact Hides.kept (Hides.refl _) (fun _ => rfl) fun _ _ => rfl
  · exact Hides.kept (hides_blankJSON.slice rfl) (fun _ => rfl) fun _ _ => rfl

theorem hides_nestedMcqConfigJSON :
    Hides nestedMcqConfigJSON (.without "correct_answer") NestedMcqConfigJSON.withoutAnswers := by
  apply Hides.struct
  intro f hf
  simp only [List.mem_cons, List.not_mem_nil, or_false] at hf
  rcases hf with rfl | rfl | rfl
  · exact Hides.kept (Hides.refl _) (fun _ => rfl) fun _ _ => rfl
  · exact Hides.kept (Hides.refl _) (fun _ => rfl) fun _ _ => rfl
  · exact Hides.removed fun _ _ => rfl

theorem hides_listeningConfigJSON :
    Hides listeningConfigJSON (.editFields listeningAnswers)
      ListeningConfigJSON.withoutAnswers := by
  apply Hides.struct
  intro f hf
  simp only [List.mem_cons, List.not_mem_nil, or_false] at hf
  rcases hf with rfl | rfl | rfl | rfl
  · exact Hides.kept (Hides.refl _) (fun _ => rfl) fun _ _ => rfl
  · exact Hides.removed fun _ _ => rfl
  · exact Hides.kept (Hides.refl _) (fun _ => rfl) fun _ _ => rfl
  · exact Hides.kept (hides_nestedMcqConfigJSON.slice rfl) (fun _ => rfl) fun _ _ => rfl

theorem hides_readingConfigJSON :
    Hides readingConfigJSON (.without "expected_answer") ReadingConfigJSON.withoutAnswers := by
  apply Hides.struct
  intro f hf
  simp only [List.mem_cons, List.not_mem_nil, or_false] at hf
  rcases hf with rfl | rfl | rfl | rfl
  · exact Hides.kept (Hides.refl _) (fun _ => rfl) fun _ _ => rfl
  · exact Hides.kept (Hides.refl _) (fun _ => rfl) fun _ _ => rfl
  · exact Hides.kept (Hides.refl _) (fun _ => rfl) fun _ _ => rfl
  · exact Hides.removed fun _ _ => rfl

theorem hides_writingConfigJSON :
    Hides writingConfigJSON (.without "expected_answer") WritingConfigJSON.withoutAnswers := by
  apply Hides.struct
  intro f hf
  simp only [List.mem_cons, List.not_mem_nil, or_false] at hf
  rcases hf with rfl | rfl | rfl | rfl
  · exact Hides.kept (Hides.refl _) (fun _ => rfl) fun _ _ => rfl
  · exact Hides.kept (Hides.refl _) (fun _ => rfl) fun _ _ => rfl
  · exact Hides.removed fun _ _ => rfl
  · exact Hides.kept (Hides.refl _) (fun _ => rfl) fun _ _ => rfl

end Unmarshal

/-- What the handlers decode from a configuration without its answers. -/
theorem unmarshalConfig_hideAnswers {kind : InteractionKind} {config : Json} {c : ConfigJSON}
    (h : unmarshalConfig kind config = some c) :
    unmarshalConfig kind (hideAnswers kind config) = some c.withoutAnswers := by
  cases kind with
  | unspecified => cases h
  | singleChoice =>
    obtain ⟨v, hv, rfl⟩ := Option.map_eq_some_iff.1 h
    exact Option.map_eq_some_iff.2 ⟨_, Unmarshal.hides_singleChoiceConfig hv, rfl⟩
  | multipleChoice =>
    obtain ⟨v, hv, rfl⟩ := Option.map_eq_some_iff.1 h
    exact Option.map_eq_some_iff.2 ⟨_, Unmarshal.hides_multipleChoiceConfig hv, rfl⟩
  | fillBlank =>
    obtain ⟨v, hv, rfl⟩ := Option.map_eq_some_iff.1 h
    refine Option.map_eq_some_iff.2 ⟨_, Unmarshal.hides_fillBlankConfigJSON hv, ?_⟩
    simp [ConfigJSON.withoutAnswers, Unmarshal.FillBlankConfigJSON.withoutAnswers, Slice.map,
      Unmarshal.BlankJSON.withoutAnswers, Slice.nil]
  | listening =>
    obtain ⟨v, hv, rfl⟩ := Option.map_eq_some_iff.1 h
    refine Option.map_eq_some_iff.2 ⟨_, Unmarshal.hides_listeningConfigJSON hv, ?_⟩
    simp [ConfigJSON.withoutAnswers, Unmarshal.ListeningConfigJSON.withoutAnswers, Slice.map,
      Unmarshal.NestedMcqConfigJSON.withoutAnswers]
  | reading =>
    obtain ⟨v, hv, rfl⟩ := Option.map_eq_some_iff.1 h
    exact Option.map_eq_some_iff.2 ⟨_, Unmarshal.hides_readingConfigJSON hv, rfl⟩
  | writing =>
    obtain ⟨v, hv, rfl⟩ := Option.map_eq_some_iff.1 h
    exact Option.map_eq_some_iff.2 ⟨_, Unmarshal.hides_writingConfigJSON hv, rfl⟩

/-- A student's `config` is the one of the stored configuration without its answers. -/
theorem applyConfig_hideAnswers {kind : InteractionKind} {config : Json}
    (h : (unmarshalConfig kind config).isSome) :
    applyConfig kind (hideAnswers kind config) true = applyConfig kind config true := by
  obtain ⟨c, hc⟩ := Option.isSome_iff_exists.1 h
  rw [applyConfig, applyConfig, unmarshalConfig_hideAnswers hc, hc, Option.map_some,
    Option.map_some, apply_withoutAnswers]

/-- A row without its explanation and its answers. -/
def LessonInteractionRow.withoutAnswers (i : LessonInteractionRow) : LessonInteractionRow :=
  { i with explanation := "", config := hideAnswers (dbStringToKind i.kind) i.config }

theorem interactionToProto_withoutAnswers {i : LessonInteractionRow}
    (h : (unmarshalConfig (dbStringToKind i.kind) i.config).isSome) :
    interactionToProto i.withoutAnswers true = interactionToProto i true := by
  simp [interactionToProto, LessonInteractionRow.withoutAnswers, applyConfig_hideAnswers h]

/-- Rows that differ in the explanation and the answers only make the same message for a
student. -/
theorem interactionToProto_eq_of_withoutAnswers_eq {i i' : LessonInteractionRow}
    (hRows : i.withoutAnswers = i'.withoutAnswers)
    (hConfig : (unmarshalConfig (dbStringToKind i.kind) i.config).isSome)
    (hConfig' : (unmarshalConfig (dbStringToKind i'.kind) i'.config).isSome) :
    interactionToProto i true = interactionToProto i' true :=
  calc interactionToProto i true
    _ = interactionToProto i.withoutAnswers true := (interactionToProto_withoutAnswers hConfig).symm
    _ = interactionToProto i'.withoutAnswers true := by rw [hRows]
    _ = interactionToProto i' true := interactionToProto_withoutAnswers hConfig'

/-- A blank with one accepted answer. -/
def blankRow (accepted explanation : String) : LessonInteractionRow where
  id := 1
  lessonId := 2
  chunkId := none
  kind := "fill_blank"
  startSeconds := 90
  orderIndex := 0
  prompt := "Fill in the blank."
  explanation := explanation
  config := marshalConfig (.fillBlank "Pages are kept on a {{0}}." [⟨[accepted], false, "noun"⟩])
  maxScore := 1
  generatedBy := "teacher"
  createdAt := some 7

theorem interactionToProto_eq_of_withoutAnswers_eq_blank :
    interactionToProto (blankRow "heap" "first in") true =
        interactionToProto (blankRow "stack" "last in") true ∧
      interactionToProto (blankRow "heap" "first in") false ≠
        interactionToProto (blankRow "stack" "last in") false :=
  ⟨interactionToProto_eq_of_withoutAnswers_eq rfl (by decide) (by decide), by decide⟩

end Answers

end Richter.Interactions
