import Richter.Interactions.Mapper

/-! The configurations that the handlers of the kinds without an AI grader accept: those that a
teacher sends (`ConfigFromCreateProto`) and those that an AI model generates (`ParseGeminiItem`).
An item is what the model's JSON decodes to. -/

namespace Richter.Interactions

open Lib
open Lessons (trimSpace fields)

/-- An item of a generated list (`singleChoiceGeminiItem` and its siblings). -/
inductive GeminiItem
  | singleChoice (questionText : String) (options : List String) (correctAnswer : Int)
      (explanation : String) (startSeconds : ℚ)
  | multipleChoice (questionText : String) (options : List String) (correctAnswers : List Int)
      (explanation : String) (startSeconds : ℚ)
  | fillBlank (prompt explanation : String) (startSeconds : ℚ) (template : String)
      (blanks : List Blank)
  | listening (question : String) (options : List String) (correctAnswer : Int)
      (explanation : String) (startSeconds : ℚ)
  deriving DecidableEq

/-- What `ParseGeminiItem` returns. -/
structure ParsedItem where
  prompt : String
  explanation : String
  startSeconds : ℚ
  config : ConfigJSON
  deriving DecidableEq

def outOfRange (kind : String) (i : Int) (options : List String) : String :=
  kind ++ ": correct_answer " ++ toString i ++ " out of range [0," ++ toString options.length ++ ")"

def minListeningQuestionWords : Nat := 4

def listeningQuestionPrompt : String := "Nghe câu hỏi và chọn đáp án đúng:"

/-- `ParseGeminiItem` of the handler of the item's kind. -/
def parseGeminiItem : GeminiItem → Except String ParsedItem
  | .singleChoice questionText options correctAnswer explanation startSeconds =>
      if correctAnswer < 0 || (options.length : Int) ≤ correctAnswer then
        .error (outOfRange "single_choice" correctAnswer options)
      else .ok ⟨questionText, explanation, startSeconds, .singleChoice options correctAnswer⟩
  | .multipleChoice questionText options correctAnswers explanation startSeconds =>
      if correctAnswers.length = 0 then
        .error "multiple_choice: at least one correct answer required"
      else
        match correctAnswers.find? fun a => a < 0 || (options.length : Int) ≤ a with
        | some a => .error ("multiple_choice: correct_answer index " ++ toString a ++
            " out of range [0," ++ toString options.length ++ ")")
        | none =>
          .ok ⟨questionText, explanation, startSeconds, .multipleChoice options correctAnswers⟩
  | .fillBlank prompt explanation startSeconds template blanks =>
      let matches_ := countPlaceholders template.length template.toList
      if trimSpace template = "" then .error "fill_blank: empty template"
      else if matches_ ≠ blanks.length then
        .error ("fill_blank: " ++ toString matches_ ++ " placeholders but " ++
          toString blanks.length ++ " blanks")
      else .ok ⟨prompt, explanation, startSeconds, .fillBlank template blanks⟩
  | .listening question options correctAnswer explanation startSeconds =>
      let question := trimSpace question
      let words := (fields question).length
      if question = "" then .error "listening: question empty"
      else if words < minListeningQuestionWords then
        .error ("listening: question too short (" ++ toString words ++ " words, need >= " ++
          toString minListeningQuestionWords ++ ")")
      else if options.length ≠ 4 then
        .error ("listening: exactly 4 options required, got " ++ toString options.length)
      else
        match options.findIdx? fun o => trimSpace o = "" with
        | some i => .error ("listening: option " ++ toString i ++ " empty")
        | none =>
          if correctAnswer < 0 || (options.length : Int) ≤ correctAnswer then
            .error (outOfRange "listening" correctAnswer options)
          else .ok ⟨listeningQuestionPrompt, explanation, startSeconds,
            .listening "" question 0 [⟨"", options, correctAnswer⟩]⟩

/-- `ConfigFromCreateProto` of the handler of a kind. -/
def handlerConfigFromCreateProto (kind : InteractionKind) (config : ConfigMessage) :
    Except Error ConfigJSON :=
  match kind, config with
  | .singleChoice, .mcq mcq => singleChoiceProtoToJSON mcq
  | .singleChoice, _ => invalidConfig "single_choice: missing mcq config"
  | .multipleChoice, .mcq mcq => multipleChoiceProtoToJSON mcq
  | .multipleChoice, _ => invalidConfig "multiple_choice: missing mcq config"
  | .fillBlank, .fillBlank template blanks => fillBlankProtoToJSON template blanks
  | .fillBlank, _ => invalidConfig "fill_blank: missing config"
  | .listening, .listening audioObjectKey durationSeconds audioSourceText questions =>
      listeningProtoToJSON audioObjectKey durationSeconds audioSourceText questions
  | .listening, _ => invalidConfig "listening: missing config"
  | .reading, .reading mode passageMarkdown question expectedAnswer =>
      readingProtoToJSON mode passageMarkdown question expectedAnswer
  | .reading, _ => invalidConfig "reading: missing config"
  | .writing, .writing prompt rubric expectedAnswer minWords =>
      writingProtoToJSON prompt rubric expectedAnswer minWords
  | .writing, _ => invalidConfig "writing: missing config"
  | .unspecified, _ =>
      .error (.connect .unimplemented "no handler for kind INTERACTION_KIND_UNSPECIFIED")

/-- The numbers of a message are those of its fields' type, `int32`. -/
def ConfigMessage.Fits : ConfigMessage → Prop
  | .mcq q => FitsInt 32 q.correctAnswer ∧ ∀ n ∈ q.correctAnswers, FitsInt 32 n
  | .listening _ durationSeconds _ questions =>
      FitsInt 32 durationSeconds ∧ ∀ q ∈ questions, FitsInt 32 q.correctAnswer
  | .writing _ _ _ minWords => FitsInt 32 minWords
  | _ => True

/-- The numbers of an item are those of its fields' type, `int`. -/
def GeminiItem.Fits : GeminiItem → Prop
  | .singleChoice _ _ correctAnswer _ _ => FitsInt 64 correctAnswer
  | .multipleChoice _ _ correctAnswers _ _ => ∀ n ∈ correctAnswers, FitsInt 64 n
  | .listening _ _ correctAnswer _ _ => FitsInt 64 correctAnswer
  | .fillBlank .. => True

/-- The handler of a kind has made the configuration. -/
inductive Accepted (kind : InteractionKind) : ConfigJSON → Prop
  | created {config : ConfigMessage} {cfg : ConfigJSON} : config.Fits →
      handlerConfigFromCreateProto kind config = .ok cfg → Accepted kind cfg
  | generated {item : GeminiItem} {parsed : ParsedItem} : item.Fits →
      parseGeminiItem item = .ok parsed → parsed.config.kind = kind → Accepted kind parsed.config

/-- The kinds whose static grader the server has and the page repeats. -/
def staticKinds : List InteractionKind := [.singleChoice, .multipleChoice, .fillBlank, .listening]

/-- What the acceptance of a configuration says of it. -/
inductive Gradable : InteractionKind → ConfigJSON → Prop
  | singleChoice {options : List String} {correctAnswer : Int} : 0 ≤ correctAnswer →
      Gradable .singleChoice (.singleChoice options correctAnswer)
  | multipleChoice {options : List String} {correctAnswers : List Int} :
      Gradable .multipleChoice (.multipleChoice options correctAnswers)
  | fillBlank {template : String} {blanks : List Blank} :
      Gradable .fillBlank (.fillBlank template blanks)
  | listening {audioObjectKey audioSourceText : String} {durationSeconds : Int}
      {questions : List NestedMcqConfigJSON} : questions ≠ [] →
      (∀ q ∈ questions, 0 ≤ q.correctAnswer ∧ FitsInt 32 q.correctAnswer) →
      Gradable .listening (.listening audioObjectKey audioSourceText durationSeconds questions)

/-- A check before the value is returned. -/
theorem ite_error_eq_ok {ε α : Type} {c : Prop} [Decidable c] {e : ε} {x : Except ε α} {a : α} :
    (if c then .error e else x) = .ok a ↔ ¬c ∧ x = .ok a := by
  split <;> simp [*]

/-- A check for each element, of which the first that fails makes the error. -/
theorem find_error_eq_ok {ε β : Type} {p : Int → Bool} {l : List Int} {e : Int → ε}
    {x : Except ε β} {b : β} :
    (match l.find? p with
      | some a => .error (e a)
      | none => x : Except ε β) = .ok b ↔ (∀ a ∈ l, ¬p a) ∧ x = .ok b := by
  rw [← List.find?_eq_none]
  split
  · next hSome => simp [hSome]
  · next hNone => simp [hNone]

theorem findIdx_error_eq_ok {ε α β : Type} {p : α → Bool} {l : List α} {e : Nat → ε}
    {x : Except ε β} {b : β} :
    (match l.findIdx? p with
      | some i => .error (e i)
      | none => x : Except ε β) = .ok b ↔ (∀ a ∈ l, p a = false) ∧ x = .ok b := by
  rw [← List.findIdx?_eq_none_iff]
  split
  · next hSome => simp [hSome]
  · next hNone => simp [hNone]

section Created

variable {cfg : ConfigJSON} {mcq : McqConfig}

theorem fitsInt_wider {n : Int} (h : FitsInt 32 n) : FitsInt 64 n := by
  unfold FitsInt at *
  omega

theorem singleChoiceProtoToJSON_eq_ok : singleChoiceProtoToJSON mcq = .ok cfg ↔
    (2 ≤ mcq.options.length ∧ 0 ≤ mcq.correctAnswer ∧ mcq.correctAnswer < mcq.options.length) ∧
      .singleChoice mcq.options mcq.correctAnswer = cfg := by
  simp only [singleChoiceProtoToJSON, invalidConfig, ite_error_eq_ok, Bool.or_eq_true,
    decide_eq_true_eq, not_or, Nat.not_lt, Int.not_lt, Int.not_le, Except.ok.injEq, and_assoc]

theorem multipleChoiceProtoToJSON_eq_ok : multipleChoiceProtoToJSON mcq = .ok cfg ↔
    (2 ≤ mcq.options.length ∧ ∀ i ∈ mcq.correctAnswers, 0 ≤ i ∧ i < mcq.options.length) ∧
      .multipleChoice mcq.options mcq.correctAnswers = cfg := by
  simp only [multipleChoiceProtoToJSON, invalidConfig, ite_error_eq_ok, Nat.not_lt, and_assoc]
  refine and_congr_right fun _ => find_error_eq_ok.trans ?_
  simp only [Bool.or_eq_true, decide_eq_true_eq, not_or, Int.not_lt, Int.not_le,
    Except.ok.injEq]

theorem fillBlankProtoToJSON_eq_ok {template : String} {blanks : List Blank} :
    fillBlankProtoToJSON template blanks = .ok cfg ↔
      (trimSpace template ≠ "" ∧
        countPlaceholders template.length template.toList = blanks.length ∧
        ∀ b ∈ blanks, b.accepted ≠ []) ∧ .fillBlank template blanks = cfg := by
  simp only [fillBlankProtoToJSON, invalidConfig, ite_error_eq_ok, ne_eq, not_not, and_assoc]
  refine and_congr_right fun _ => and_congr_right fun _ => findIdx_error_eq_ok.trans ?_
  simp only [decide_eq_false_iff_not, Except.ok.injEq]

theorem validateMcqList_eq_none {configs : List McqConfig} : validateMcqList configs = none ↔
    configs ≠ [] ∧ ∀ q ∈ configs,
      2 ≤ q.options.length ∧ 0 ≤ q.correctAnswer ∧ q.correctAnswer < q.options.length := by
  unfold validateMcqList
  by_cases hEmpty : configs = []
  · simp [hEmpty]
  · rw [if_neg hEmpty, List.findSome?_eq_none_iff]
    constructor
    · intro h
      refine ⟨hEmpty, fun q hq => ?_⟩
      obtain ⟨i, hi, rfl⟩ := List.mem_iff_getElem.mp hq
      have hMem : (configs[i], i) ∈ configs.zipIdx := by
        rw [List.mk_mem_zipIdx_iff_getElem?]
        exact List.getElem?_eq_getElem hi
      have hNone := h _ hMem
      simp only at hNone
      split at hNone
      · cases hNone
      · next hTwo =>
        simp only [ite_eq_right_iff, reduceCtorEq, imp_false, Bool.or_eq_true, decide_eq_true_eq,
          not_or] at hNone
        omega
    · rintro ⟨-, h⟩ ⟨q, i⟩ hMem
      obtain ⟨hTwo, hLow, hHigh⟩ := h q (List.fst_mem_of_mem_zipIdx hMem)
      have hRange :
          ¬(q.correctAnswer < 0 || (q.options.length : Int) ≤ q.correctAnswer) = true := by
        simp only [Bool.or_eq_true, decide_eq_true_eq]
        omega
      simp only [if_neg (show ¬q.options.length < 2 by omega), if_neg hRange]

theorem listeningProtoToJSON_eq_ok {audioObjectKey audioSourceText : String}
    {durationSeconds : Int} {questions : List McqConfig} :
    listeningProtoToJSON audioObjectKey durationSeconds audioSourceText questions = .ok cfg ↔
      (trimSpace audioSourceText ≠ "" ∧ questions ≠ [] ∧ ∀ q ∈ questions,
        2 ≤ q.options.length ∧ 0 ≤ q.correctAnswer ∧ q.correctAnswer < q.options.length) ∧
      .listening audioObjectKey (trimSpace audioSourceText) durationSeconds
        (questions.map fun q => ⟨"", q.options, q.correctAnswer⟩) = cfg := by
  simp only [listeningProtoToJSON, invalidConfig, ite_error_eq_ok, ← validateMcqList_eq_none,
    and_assoc]
  refine and_congr_right fun _ => ?_
  split
  · next hSome => simp [hSome]
  · next hNone => simp [hNone]

theorem readingProtoToJSON_eq_ok {mode : ReadingMode}
    {passageMarkdown question expectedAnswer : String} :
    readingProtoToJSON mode passageMarkdown question expectedAnswer = .ok cfg ↔
      (trimSpace passageMarkdown ≠ "" ∧ (mode = .openAnswer → trimSpace question ≠ "")) ∧
      .reading (readingModeToString mode) passageMarkdown question
        (if mode = .openAnswer then expectedAnswer else "") = cfg := by
  simp only [readingProtoToJSON, invalidConfig, ite_error_eq_ok, Bool.and_eq_true,
    decide_eq_true_eq, not_and, ne_eq, Except.ok.injEq, and_assoc]

end Created

section Generated

variable {item : GeminiItem} {parsed : ParsedItem} {explanation : String} {startSeconds : ℚ}

theorem parseGeminiItem_singleChoice {questionText : String} {options : List String}
    {correctAnswer : Int} :
    parseGeminiItem (.singleChoice questionText options correctAnswer explanation startSeconds) =
        .ok parsed ↔
      (0 ≤ correctAnswer ∧ correctAnswer < options.length) ∧
        ⟨questionText, explanation, startSeconds, .singleChoice options correctAnswer⟩ =
          parsed := by
  simp only [parseGeminiItem, ite_error_eq_ok, Bool.or_eq_true, decide_eq_true_eq, not_or,
    Int.not_lt, Int.not_le, Except.ok.injEq]

theorem parseGeminiItem_multipleChoice {questionText : String} {options : List String}
    {correctAnswers : List Int} :
    parseGeminiItem (.multipleChoice questionText options correctAnswers explanation startSeconds) =
        .ok parsed ↔
      (correctAnswers ≠ [] ∧ ∀ a ∈ correctAnswers, 0 ≤ a ∧ a < options.length) ∧
        ⟨questionText, explanation, startSeconds, .multipleChoice options correctAnswers⟩ =
          parsed := by
  simp only [parseGeminiItem, ite_error_eq_ok, List.length_eq_zero_iff, ne_eq, and_assoc]
  refine and_congr_right fun _ => find_error_eq_ok.trans ?_
  simp only [Bool.or_eq_true, decide_eq_true_eq, not_or, Int.not_lt, Int.not_le,
    Except.ok.injEq]

theorem parseGeminiItem_fillBlank {prompt template : String} {blanks : List Blank} :
    parseGeminiItem (.fillBlank prompt explanation startSeconds template blanks) = .ok parsed ↔
      (trimSpace template ≠ "" ∧
        countPlaceholders template.length template.toList = blanks.length) ∧
        ⟨prompt, explanation, startSeconds, .fillBlank template blanks⟩ = parsed := by
  simp only [parseGeminiItem, ite_error_eq_ok, ne_eq, not_not, Except.ok.injEq, and_assoc]

theorem parseGeminiItem_listening {question : String} {options : List String}
    {correctAnswer : Int} :
    parseGeminiItem (.listening question options correctAnswer explanation startSeconds) =
        .ok parsed ↔
      (trimSpace question ≠ "" ∧
        minListeningQuestionWords ≤ (fields (trimSpace question)).length ∧
        options.length = 4 ∧ (∀ o ∈ options, trimSpace o ≠ "") ∧
        0 ≤ correctAnswer ∧ correctAnswer < options.length) ∧
        ⟨listeningQuestionPrompt, explanation, startSeconds,
          .listening "" (trimSpace question) 0 [⟨"", options, correctAnswer⟩]⟩ = parsed := by
  simp only [parseGeminiItem, ite_error_eq_ok, Nat.not_lt, ne_eq, not_not, and_assoc]
  refine and_congr_right fun _ => and_congr_right fun _ => and_congr_right fun _ =>
    findIdx_error_eq_ok.trans ?_
  simp only [ite_error_eq_ok, decide_eq_false_iff_not, Bool.or_eq_true, decide_eq_true_eq, not_or,
    Int.not_lt, Int.not_le, Except.ok.injEq, and_assoc]

/-- A generated configuration is gradable and has numbers of the stored types. -/
theorem gradable_generated (hItem : item.Fits) (h : parseGeminiItem item = .ok parsed) :
    Gradable parsed.config.kind parsed.config ∧ parsed.config.Fits := by
  cases item with
  | singleChoice questionText options correctAnswer explanation startSeconds =>
    obtain ⟨⟨hLow, -⟩, rfl⟩ := parseGeminiItem_singleChoice.mp h
    exact ⟨.singleChoice hLow, hItem⟩
  | multipleChoice questionText options correctAnswers explanation startSeconds =>
    obtain ⟨-, rfl⟩ := parseGeminiItem_multipleChoice.mp h
    exact ⟨.multipleChoice, hItem⟩
  | fillBlank prompt explanation startSeconds template blanks =>
    obtain ⟨-, rfl⟩ := parseGeminiItem_fillBlank.mp h
    exact ⟨.fillBlank, trivial⟩
  | listening question options correctAnswer explanation startSeconds =>
    obtain ⟨⟨-, -, hFour, -, hLow, hHigh⟩, rfl⟩ := parseGeminiItem_listening.mp h
    have hFits : FitsInt 32 correctAnswer := by
      unfold FitsInt
      omega
    refine ⟨.listening (by simp) fun q hq => ?_, ⟨by decide, fun q hq => ?_⟩⟩
    · rw [List.mem_singleton] at hq
      subst hq
      exact ⟨hLow, hFits⟩
    · rw [List.mem_singleton] at hq
      subst hq
      exact fitsInt_wider hFits

end Generated

theorem gradable_created {kind : InteractionKind} {config : ConfigMessage} {cfg : ConfigJSON}
    (hKind : kind ∈ staticKinds) (hConfig : config.Fits)
    (h : handlerConfigFromCreateProto kind config = .ok cfg) :
    Gradable kind cfg ∧ cfg.Fits := by
  unfold handlerConfigFromCreateProto at h
  split at h
  · obtain ⟨⟨-, hLow, -⟩, rfl⟩ := singleChoiceProtoToJSON_eq_ok.mp h
    exact ⟨.singleChoice hLow, fitsInt_wider hConfig.1⟩
  · cases h
  · obtain ⟨-, rfl⟩ := multipleChoiceProtoToJSON_eq_ok.mp h
    exact ⟨.multipleChoice, fun n hn => fitsInt_wider (hConfig.2 n hn)⟩
  · cases h
  · obtain ⟨-, rfl⟩ := fillBlankProtoToJSON_eq_ok.mp h
    exact ⟨.fillBlank, trivial⟩
  · cases h
  · obtain ⟨⟨-, hNe, hRange⟩, rfl⟩ := listeningProtoToJSON_eq_ok.mp h
    refine ⟨.listening (by simpa using hNe) fun q hq => ?_, hConfig.1, fun q hq => ?_⟩
    · obtain ⟨m, hm, rfl⟩ := List.mem_map.mp hq
      exact ⟨(hRange m hm).2.1, hConfig.2 m hm⟩
    · obtain ⟨m, hm, rfl⟩ := List.mem_map.mp hq
      exact fitsInt_wider (hConfig.2 m hm)
  · cases h
  all_goals exact absurd hKind (by decide)

theorem Accepted.gradable {kind : InteractionKind} {cfg : ConfigJSON} (h : Accepted kind cfg)
    (hKind : kind ∈ staticKinds) : Gradable kind cfg ∧ cfg.Fits := by
  cases h with
  | created hConfig hOk => exact gradable_created hKind hConfig hOk
  | generated hItem hOk hSame => exact hSame ▸ gradable_generated hItem hOk

end Richter.Interactions
