import Mathlib.Algebra.Group.Nat.Defs
import Richter.Interactions.Response
import Richter.Lessons.Transcript

/-! The configurations of the interactions: the messages in which a teacher sends them, and the JSON
in which the handlers of the kinds store them (`mcq.go`, `nested_mcq.go`, `fill_blank.go`,
`listening.go`, `reading.go` and `writing.go` of `internal/svc/interactions`). -/

namespace Richter.Interactions

open Lessons (trimSpace)

/-- A conversion to `int32`. -/
def toInt32 (n : Int) : Int := n.bmod (2 ^ 32)

/-- `kindToDBString`. -/
def kindToDBString : InteractionKind → String
  | .singleChoice => "mcq"
  | .multipleChoice => "multiple_choice"
  | .fillBlank => "fill_blank"
  | .listening => "listening"
  | .reading => "reading"
  | .writing => "writing"
  | .unspecified => "unknown"

theorem dbStringToKind_kindToDBString (kind : InteractionKind) :
    dbStringToKind (kindToDBString kind) = kind := by
  cases kind <;> rfl

structure McqConfig where
  question : String
  options : List String
  correctAnswer : Int
  correctAnswers : List Int
  deriving DecidableEq

structure Blank where
  accepted : List String
  caseSensitive : Bool
  hint : String
  deriving DecidableEq

inductive ReadingMode
  | unspecified
  | pronunciation
  | openAnswer
  deriving DecidableEq

/-- The `config` of an `UpdateInteractionRequest`. -/
inductive ConfigMessage
  | mcq (mcq : McqConfig)
  | fillBlank (template : String) (blanks : List Blank)
  | listening (audioObjectKey : String) (durationSeconds : Int) (audioSourceText : String)
      (comprehensionQuestions : List McqConfig)
  | reading (mode : ReadingMode) (passageMarkdown question expectedAnswer : String)
  | writing (prompt rubric expectedAnswer : String) (minWords : Int)
  deriving DecidableEq

structure NestedMcqConfigJSON where
  question : String
  options : List String
  correctAnswer : Int
  deriving DecidableEq

/-- The JSON of a configuration (`singleChoiceConfig` and its siblings). -/
inductive ConfigJSON
  | singleChoice (options : List String) (correctAnswer : Int)
  | multipleChoice (options : List String) (correctAnswers : List Int)
  | fillBlank (template : String) (blanks : List Blank)
  | listening (audioObjectKey audioSourceText : String) (durationSeconds : Int)
      (comprehensionQuestions : List NestedMcqConfigJSON)
  | reading (mode passageMarkdown question expectedAnswer : String)
  | writing (prompt rubric expectedAnswer : String) (minWords : Int)
  deriving DecidableEq

def ConfigJSON.kind : ConfigJSON → InteractionKind
  | .singleChoice .. => .singleChoice
  | .multipleChoice .. => .multipleChoice
  | .fillBlank .. => .fillBlank
  | .listening .. => .listening
  | .reading .. => .reading
  | .writing .. => .writing

def invalidConfig (text : String) : Except Error ConfigJSON :=
  .error (.connect .invalidArgument text)

def singleChoiceProtoToJSON (mcq : McqConfig) : Except Error ConfigJSON :=
  if mcq.options.length < 2 then invalidConfig "single_choice: at least 2 options required"
  else if mcq.correctAnswer < 0 || mcq.options.length ≤ mcq.correctAnswer then
    invalidConfig "single_choice: correct_answer index out of range"
  else .ok (.singleChoice mcq.options mcq.correctAnswer)

def multipleChoiceProtoToJSON (mcq : McqConfig) : Except Error ConfigJSON :=
  if mcq.options.length < 2 then invalidConfig "multiple_choice: at least 2 options required"
  else
    match mcq.correctAnswers.find? fun i => i < 0 || (mcq.options.length : Int) ≤ i with
    | some i =>
      invalidConfig ("multiple_choice: correct_answer index " ++ toString i ++ " out of range")
    | none => .ok (.multipleChoice mcq.options mcq.correctAnswers)

/-- What follows a placeholder of a blank at the start of a text. -/
def afterPlaceholder : List Char → Option (List Char)
  | '{' :: '{' :: cs =>
    match cs.takeWhile Char.isDigit, cs.dropWhile Char.isDigit with
    | _ :: _, '}' :: '}' :: rest => some rest
    | _, _ => none
  | _ => none

/-- The number of matches of `placeholderRE`; `fuel` bounds it. -/
def countPlaceholders : Nat → List Char → Nat
  | 0, _ | _, [] => 0
  | fuel + 1, c :: cs =>
    match afterPlaceholder (c :: cs) with
    | some rest => countPlaceholders fuel rest + 1
    | none => countPlaceholders fuel cs

def fillBlankProtoToJSON (template : String) (blanks : List Blank) : Except Error ConfigJSON :=
  let matches_ := countPlaceholders template.length template.toList
  if trimSpace template = "" then invalidConfig "fill_blank: template empty"
  else if matches_ ≠ blanks.length then
    invalidConfig ("fill_blank: template has " ++ toString matches_ ++ " placeholders but " ++
      toString blanks.length ++ " blanks provided")
  else
    match blanks.findIdx? fun b => b.accepted = [] with
    | some i =>
      invalidConfig ("fill_blank: blank " ++ toString i ++ " has no accepted answers")
    | none => .ok (.fillBlank template blanks)

/-- The first error of `validateMcqList`. -/
def validateMcqList (configs : List McqConfig) : Option String :=
  if configs = [] then some "nested MCQ list is empty"
  else
    (configs.zipIdx).findSome? fun (cfg, i) =>
      if cfg.options.length < 2 then
        some ("nested MCQ[" ++ toString i ++ "]: need at least 2 options")
      else if cfg.correctAnswer < 0 || cfg.options.length ≤ cfg.correctAnswer then
        some ("nested MCQ[" ++ toString i ++ "]: correct_answer " ++ toString cfg.correctAnswer ++
          " out of range [0," ++ toString cfg.options.length ++ ")")
      else none

/-- The texts of the questions are dropped: a question is what is heard. -/
def listeningProtoToJSON (audioObjectKey : String) (durationSeconds : Int)
    (audioSourceText : String) (comprehensionQuestions : List McqConfig) :
    Except Error ConfigJSON :=
  let question := trimSpace audioSourceText
  if question = "" then invalidConfig "listening: audio_source_text (the question) required"
  else
    match validateMcqList comprehensionQuestions with
    | some text => invalidConfig ("listening: " ++ text)
    | none => .ok (.listening audioObjectKey question durationSeconds
        (comprehensionQuestions.map fun q => ⟨"", q.options, q.correctAnswer⟩))

def readingModeToString : ReadingMode → String
  | .openAnswer => "open_answer"
  | _ => "pronunciation"

def readingProtoToJSON (mode : ReadingMode) (passageMarkdown question expectedAnswer : String) :
    Except Error ConfigJSON :=
  if trimSpace passageMarkdown = "" then invalidConfig "reading: passage_markdown required"
  else if mode = .openAnswer && trimSpace question = "" then
    invalidConfig "reading: question required for open_answer mode"
  else .ok (.reading (readingModeToString mode) passageMarkdown question
    (if mode = .openAnswer then expectedAnswer else ""))

def writingProtoToJSON (prompt rubric expectedAnswer : String) (minWords : Int) :
    Except Error ConfigJSON :=
  if trimSpace prompt = "" then invalidConfig "writing: prompt empty"
  else if minWords < 0 then invalidConfig "writing: min_words must be >= 0"
  else .ok (.writing prompt rubric expectedAnswer minWords)

/-- The JSON of a message (`ConfigFromUpdateProto`), by the handler of the kind that
`UpdateInteraction` chooses for it. -/
def configFromUpdateProto : ConfigMessage → Except Error ConfigJSON
  | .mcq mcq =>
      if mcq.correctAnswers ≠ [] then multipleChoiceProtoToJSON mcq else singleChoiceProtoToJSON mcq
  | .fillBlank template blanks => fillBlankProtoToJSON template blanks
  | .listening audioObjectKey durationSeconds audioSourceText comprehensionQuestions =>
      listeningProtoToJSON audioObjectKey durationSeconds audioSourceText comprehensionQuestions
  | .reading mode passageMarkdown question expectedAnswer =>
      readingProtoToJSON mode passageMarkdown question expectedAnswer
  | .writing prompt rubric expectedAnswer minWords =>
      writingProtoToJSON prompt rubric expectedAnswer minWords

/-- `ConfigFromCreateProto`, which makes the same JSON. -/
def configFromCreateProto : ConfigMessage → Except Error ConfigJSON := configFromUpdateProto

/-- The field `audio_object_key` of a configuration, which only one of a listening has. -/
def ConfigJSON.audioObjectKey : ConfigJSON → String
  | .listening audioObjectKey .. => audioObjectKey
  | _ => ""

def ConfigJSON.audioSourceText : ConfigJSON → String
  | .listening _ audioSourceText .. => audioSourceText
  | _ => ""

/-- `SetAudioObjectKey`, of a listening's configuration. -/
def ConfigJSON.setAudioObjectKey (key : String) : ConfigJSON → ConfigJSON
  | .listening _ audioSourceText durationSeconds comprehensionQuestions =>
      .listening key audioSourceText durationSeconds comprehensionQuestions
  | cfg => cfg

/-- `maybeSynthesizeListeningAudio`; `tts` is what the synthesiser answers, if there is one: the key
of a new recording.  `oldConfigJSON` is the configuration that an update replaces.  The same
question keeps its audio. -/
def maybeSynthesizeListeningAudio (tts : Option (Except String String))
    (configJSON : ConfigJSON) (oldConfigJSON : Option ConfigJSON) : Except Error ConfigJSON :=
  match tts with
  | none => .ok configJSON
  | some tts =>
    let text := trimSpace configJSON.audioSourceText
    let oldKey := (oldConfigJSON.map ConfigJSON.audioObjectKey).getD ""
    if text = "" then .ok configJSON
    else if oldKey ≠ "" && oldConfigJSON.any fun old => trimSpace old.audioSourceText = text then
      .ok (configJSON.setAudioObjectKey oldKey)
    else
      match tts with
      | .ok key => .ok (configJSON.setAudioObjectKey key)
      | .error e =>
        .error (.connect .internal ("listening: synthesise audio from question text: " ++ e))

/-- At most the audio changes. -/
theorem maybeSynthesizeListeningAudio_cases {tts : Option (Except String String)}
    {configJSON configJSON' : ConfigJSON} {oldConfigJSON : Option ConfigJSON}
    (h : maybeSynthesizeListeningAudio tts configJSON oldConfigJSON = .ok configJSON') :
    configJSON' = configJSON ∨ ∃ key, configJSON' = configJSON.setAudioObjectKey key := by
  cases tts with
  | none =>
    cases h
    exact .inl rfl
  | some answer =>
    simp only [maybeSynthesizeListeningAudio] at h
    split at h
    · cases h
      exact .inl rfl
    · split at h
      · cases h
        exact .inr ⟨_, rfl⟩
      · split at h
        · cases h
          exact .inr ⟨_, rfl⟩
        · cases h

end Richter.Interactions
