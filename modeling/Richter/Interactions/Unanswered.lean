import Richter.Interactions.Editable
import Richter.Interactions.GradeLocal

/-! Interactions that a student leaves unanswered: the page submits an answer for each of them
(`student-attempt-response.ts`), and the handler of the kind grades it. -/

namespace Richter.Interactions

open Lib
open Lessons (trimSpace)

/-- The configuration of an interaction of a kind, by the ways in which one is stored: from a
generated item; from the message of a teacher, by the handler of the kind that
`CreateManualInteraction` or `UpdateInteraction` chooses for it; and with the audio that is made
of the question. -/
inductive Stored : InteractionKind → ConfigJSON → Prop
  | generated {item : GeneratedItem} {parsed : ParsedItem} : item.Fits →
      item.parse = .ok parsed → Stored parsed.config.kind parsed.config
  | created {config : ConfigMessage} {cfg : ConfigJSON} : config.Fits →
      handlerConfigFromCreateProto config.kind config = .ok cfg → Stored config.kind cfg
  | updated {config : ConfigMessage} {cfg : ConfigJSON} : config.Fits →
      configFromUpdateProto config = .ok cfg → Stored config.kind cfg
  | synthesized {kind : InteractionKind} {cfg : ConfigJSON} (key : String) : Stored kind cfg →
      Stored kind (cfg.setAudioObjectKey key)

/-- No correct answer is the one that stands for none. -/
def ConfigJSON.AsksForAnswer : ConfigJSON → Prop
  | .singleChoice _ correctAnswer => correctAnswer ≠ -1
  | .multipleChoice _ correctAnswers => correctAnswers ≠ []
  | _ => True

/-- The page's answer to an unanswered interaction is taken, and the score is 0.  The grade is the
same whatever the functions for grading and for downloads are: they may be missing, or end every
call in a panic, so none is called. -/
def UnansweredIsZero (fold : Char → Char) (it : LessonInteractionMessage) (cfg : ConfigJSON)
    (metrics : Option ResponseMetrics) : Prop :=
  ∃ toJSON resp, responseProtoToJSON it.kind = some toJSON ∧
    toJSON (buildAttemptResponseInput it none metrics).response = .ok resp ∧
    ∀ withContext, ∃ g : Grade, g.score = 0 ∧ ∀ deps : GradingFunctions,
      handlerGrade withContext (askedOutcome fold withContext deps it.kind cfg resp) it.kind cfg
        resp = .graded g

section Graders

/-- The response that the handler of a kind makes of the page's answer. -/
def unansweredJSON : InteractionKind → ResponseJSON
  | .multipleChoice => .multipleChoice []
  | .fillBlank => .fillBlank []
  | .listening => .listening []
  | .reading => .reading ""
  | .writing => .writing ""
  | _ => .singleChoice (-1)

variable (fold : Char → Char) {it : LessonInteractionMessage} {cfg : ConfigJSON}

/-- The page chooses the case of the answer by the kind and the case of the configuration, and the
handler takes it. -/
theorem unanswered_taken {stripAnswers : Bool} (hKind : it.kind = cfg.kind)
    (hConfig : it.config = some (cfg.apply stripAnswers)) (metrics : Option ResponseMetrics) :
    ∃ toJSON, responseProtoToJSON it.kind = some toJSON ∧
      toJSON (buildAttemptResponseInput it none metrics).response =
        .ok (unansweredJSON cfg.kind) := by
  rw [buildAttemptResponseInput, hKind, hConfig]
  cases cfg <;> exact ⟨_, rfl, rfl⟩

theorem multipleChoiceGrade_unanswered (options : List String) (correctAnswers : List Int) :
    multipleChoiceGrade (.multipleChoice options correctAnswers) (.multipleChoice []) =
      ⟨if correctAnswers = [] then 1 else 0, 1, ""⟩ := by
  by_cases hNone : correctAnswers = []
  · subst hNone
    rfl
  · have hSome : correctAnswers.dedup.length ≠ 0 := by simpa using hNone
    rw [if_neg hNone]
    exact if_pos hSome

theorem gradeMcqList_unanswered (questions : List NestedMcqConfigJSON) :
    gradeMcqList questions [] = (0, questions.length) := by
  simp [gradeMcqList]

/-- No blank is answered, so no model is asked about one. -/
theorem fillBlankGradeWithDeps_unanswered (deps : GradingFunctions) :
    fillBlankGradeWithDeps fold deps cfg (.fillBlank []) =
      .graded ⟨0, cfg.blanks.length,
        "\n".intercalate ((List.range cfg.blanks.length).map unanswered)⟩ := by
  have hSame : fillBlankGradeWithDeps fold deps cfg (.fillBlank []) =
      fillBlankGradeWithContext fold none cfg (.fillBlank []) := rfl
  rw [hSame]
  refine fillBlankGradeWithContext_unanswered fold fun i answer _ hAnswer => ?_
  rw [ResponseJSON.answers, List.getElem?_nil] at hAnswer
  cases hAnswer

theorem fillBlankGrade_unanswered :
    (fillBlankGrade fold cfg (.fillBlank [])).score = 0 := by
  simp [fillBlankGrade, ResponseJSON.answers]

/-- What the graders come to for the page's answer, whatever the functions are. -/
theorem graded_unanswered (cfg : ConfigJSON) (withContext : Bool) : ∃ g : Grade,
    (g.score = 0 ↔ cfg.AsksForAnswer) ∧ ∀ deps : GradingFunctions,
      handlerGrade withContext
        (askedOutcome fold withContext deps cfg.kind cfg (unansweredJSON cfg.kind)) cfg.kind cfg
        (unansweredJSON cfg.kind) = .graded g := by
  cases cfg with
  | singleChoice options correctAnswer =>
    refine ⟨_, ?_, fun deps => rfl⟩
    simp [singleChoiceGrade, ConfigJSON.correctAnswer, ResponseJSON.selected, unansweredJSON,
      ConfigJSON.kind, ConfigJSON.AsksForAnswer, eq_comm]
  | multipleChoice options correctAnswers =>
    refine ⟨_, ?_, fun deps => rfl⟩
    simp [unansweredJSON, ConfigJSON.kind, multipleChoiceGrade_unanswered,
      ConfigJSON.AsksForAnswer]
  | fillBlank template blanks =>
    cases withContext with
    | false => exact ⟨_, iff_of_true (fillBlankGrade_unanswered fold) trivial, fun deps => rfl⟩
    | true =>
      exact ⟨_, iff_of_true rfl trivial, fun deps => fillBlankGradeWithDeps_unanswered fold deps⟩
  | listening audioObjectKey audioSourceText durationSeconds questions =>
    refine ⟨_, iff_of_true ?_ trivial, fun deps => rfl⟩
    cases withContext <;>
      simp [listeningGrade, listeningGradeWithContext, unansweredJSON, ConfigJSON.kind,
        ResponseJSON.comprehensionAnswers, gradeMcqList_unanswered]
  | reading mode passageMarkdown question expectedAnswer =>
    refine ⟨⟨0, 1, "Chưa có bản ghi âm."⟩, iff_of_true rfl trivial, fun deps => ?_⟩
    have hNoKey : trimSpace (unansweredJSON .reading).audioObjectKey = "" := Lessons.trimSpace_empty
    cases withContext
    · exact congrArg Outcome.graded (if_pos hNoKey)
    · exact if_pos hNoKey
  | writing prompt rubric expectedAnswer minWords =>
    refine ⟨⟨0, 1, "Chưa có bài viết."⟩, iff_of_true rfl trivial, fun deps => ?_⟩
    have hNoText : trimSpace (unansweredJSON .writing).essay = "" := Lessons.trimSpace_empty
    cases withContext
    · exact congrArg Outcome.graded (if_pos hNoText)
    · exact if_pos hNoText

/-- A configuration that decodes: the page's answer is taken, and scores nothing just when a correct
answer is asked for. -/
theorem unansweredIsZero_iff {stripAnswers : Bool} (hKind : it.kind = cfg.kind)
    (hConfig : it.config = some (cfg.apply stripAnswers)) (metrics : Option ResponseMetrics) :
    UnansweredIsZero fold it cfg metrics ↔ cfg.AsksForAnswer := by
  obtain ⟨toJSON, hToJSON, hTaken⟩ := unanswered_taken hKind hConfig metrics
  constructor
  · rintro ⟨toJSON', resp, hToJSON', hTaken', hGraded⟩
    cases hToJSON.symm.trans hToJSON'
    cases hTaken.symm.trans hTaken'
    obtain ⟨g, hZero, hGrade⟩ := hGraded true
    obtain ⟨g', hScore, hGrade'⟩ := graded_unanswered fold cfg true
    rw [hKind] at hGrade
    cases (hGrade ⟨none, none, none⟩).symm.trans (hGrade' ⟨none, none, none⟩)
    exact hScore.mp hZero
  · intro hAsks
    refine ⟨toJSON, _, hToJSON, hTaken, fun withContext => ?_⟩
    obtain ⟨g, hScore, hGrade⟩ := graded_unanswered fold cfg withContext
    rw [hKind]
    exact ⟨g, hScore.mpr hAsks, hGrade⟩

end Graders

/-! ### The configurations that are accepted -/

section Accepted

variable {kind : InteractionKind} {config : ConfigMessage} {cfg : ConfigJSON}

/-- `CreateManualInteraction` asks the handler of the kind that it chooses. -/
theorem handlerConfigFromCreateProto_chosen (config : ConfigMessage) :
    handlerConfigFromCreateProto config.kind config = configFromUpdateProto config := by
  cases config with
  | mcq mcq =>
    by_cases hSome : mcq.correctAnswers ≠ []
    · simp [ConfigMessage.kind, hSome, handlerConfigFromCreateProto, configFromUpdateProto]
    · simp [ConfigMessage.kind, hSome, handlerConfigFromCreateProto, configFromUpdateProto]
  | _ => rfl

/-- What the handler of a kind makes of a message is of its kind, and asks for an answer unless it
is a multiple choice without correct answers. -/
theorem handlerConfigFromCreateProto_spec (hConfig : config.Fits)
    (h : handlerConfigFromCreateProto kind config = .ok cfg) :
    cfg.kind = kind ∧ cfg.Fits ∧
      (cfg.AsksForAnswer ↔ ¬(kind = .multipleChoice ∧ cfg.correctAnswers = [])) := by
  by_cases hStatic : kind ∈ staticKinds
  · obtain ⟨hGradable, hFits⟩ := gradable_created hStatic hConfig h
    refine ⟨hGradable.kind_eq, hFits, ?_⟩
    cases hGradable with
    | singleChoice hLow =>
      refine iff_of_true (fun hNone => ?_) (by simp)
      omega
    | multipleChoice => simp [ConfigJSON.AsksForAnswer, ConfigJSON.correctAnswers]
    | fillBlank => exact iff_of_true trivial (by simp)
    | listening => exact iff_of_true trivial (by simp)
  · unfold handlerConfigFromCreateProto at h
    split at h
    all_goals first | exact absurd (by decide) hStatic | skip
    · obtain ⟨-, rfl⟩ := readingProtoToJSON_eq_ok.mp h
      exact ⟨rfl, trivial, iff_of_true trivial (by simp)⟩
    · cases h
    · simp only [writingProtoToJSON, invalidConfig, ite_error_eq_ok] at h
      obtain ⟨-, -, hOk⟩ := h
      cases hOk
      exact ⟨rfl, hConfig, iff_of_true trivial (by simp)⟩
    · cases h
    · cases h

/-- The kind that is chosen is a multiple choice only with correct answers. -/
theorem updated_asksForAnswer (hConfig : config.Fits) (h : configFromUpdateProto config = .ok cfg) :
    cfg.kind = config.kind ∧ cfg.Fits ∧ cfg.AsksForAnswer := by
  have hChosen := (handlerConfigFromCreateProto_chosen config).trans h
  obtain ⟨hKind, hFits, hAsks⟩ := handlerConfigFromCreateProto_spec hConfig hChosen
  refine ⟨hKind, hFits, hAsks.mpr ?_⟩
  rintro ⟨hMultiple, hNone⟩
  cases config with
  | mcq mcq =>
    by_cases hSome : mcq.correctAnswers ≠ []
    · rw [configFromUpdateProto, if_pos hSome] at h
      rw [← (multipleChoiceProtoToJSON_eq_ok.mp h).2] at hNone
      exact hSome hNone
    · rw [ConfigMessage.kind, if_neg hSome] at hMultiple
      cases hMultiple
  | _ => cases hMultiple

theorem generated_asksForAnswer {item : GeneratedItem} {parsed : ParsedItem}
    (h : item.parse = .ok parsed) : parsed.config.AsksForAnswer := by
  match item, h with
  | .static (.singleChoice ..), h =>
    obtain ⟨⟨hLow, -⟩, rfl⟩ := parseGeminiItem_singleChoice.mp h
    intro hNone
    omega
  | .static (.multipleChoice ..), h =>
    obtain ⟨⟨hSome, -⟩, rfl⟩ := parseGeminiItem_multipleChoice.mp h
    exact hSome
  | .static (.fillBlank ..), h =>
    obtain ⟨-, rfl⟩ := parseGeminiItem_fillBlank.mp h
    trivial
  | .static (.listening ..), h =>
    obtain ⟨-, rfl⟩ := parseGeminiItem_listening.mp h
    trivial
  | .reading item, h =>
    obtain ⟨-, rfl⟩ := parseReadingGeminiItem_eq_ok.mp h
    trivial

/-- A stored configuration is of the interaction's kind, decodes, and asks for an answer. -/
theorem Stored.spec (h : Stored kind cfg) : cfg.kind = kind ∧ cfg.Fits ∧ cfg.AsksForAnswer := by
  induction h with
  | generated hItem hParsed =>
    exact ⟨rfl, fits_of_parse hItem hParsed, generated_asksForAnswer hParsed⟩
  | created hConfig hMade =>
    exact updated_asksForAnswer hConfig ((handlerConfigFromCreateProto_chosen _).symm.trans hMade)
  | updated hConfig hMade => exact updated_asksForAnswer hConfig hMade
  | @synthesized kind cfg key _ ih =>
    obtain ⟨hKind, hFits, hAsks⟩ := ih
    refine ⟨(kind_setAudioObjectKey key cfg).trans hKind,
      (fits_setAudioObjectKey key cfg).mpr hFits, ?_⟩
    cases cfg <;> exact hAsks

end Accepted

/-! ### The service -/

section Service

variable {x x' : Site} {env : SiteEnv} {tts : Option (Except String String)}
  {teacher : Except Error Unit}

/-- Every interaction has a configuration that was stored for its kind. -/
def Site.AllStored (x : Site) : Prop :=
  ∀ i ∈ x.db.lessonInteractions.rows, Stored (dbStringToKind i.kind) (x.config i.id)

theorem stored_of_synthesized {kind : InteractionKind} {stored configJSON : ConfigJSON}
    (h : Stored kind stored)
    (hAudio : configJSON = stored ∨ ∃ key, configJSON = stored.setAudioObjectKey key) :
    Stored kind configJSON := by
  rcases hAudio with rfl | ⟨key, rfl⟩
  · exact h
  · exact .synthesized key h

/-- An update leaves every interaction with a stored configuration. -/
theorem updateInteraction_allStored {updateFailure : Option DbError} {interactionID : UUID}
    {config : Option ConfigMessage} (hConfig : ∀ message ∈ config, message.Fits)
    (h : x.updateInteraction env updateFailure tts teacher interactionID config = .ok x')
    (hStored : x.AllStored) : x'.AllStored := by
  obtain ⟨existing, kind, configJSON, hFind, rfl, hMade⟩ := Site.updateInteraction_cases h
  have hNew : Stored kind configJSON := by
    rcases hMade with ⟨rfl, rfl⟩ | ⟨message, stored, rfl, rfl, hOk, hAudio⟩
    · obtain ⟨hMem, rfl⟩ := Table.find_eq_some_iff.mp hFind
      exact hStored existing hMem
    · exact stored_of_synthesized (.updated (hConfig message rfl) hOk) hAudio
  intro i hi
  obtain ⟨old, hOld, rfl⟩ := List.mem_map.mp hi
  by_cases hSame : old.id = interactionID
  · simp [hSame, dbStringToKind_kindToDBString, hNew]
  · simpa [hSame, Function.update_of_ne hSame] using hStored old hOld

/-- So does a new interaction. -/
theorem createManualInteraction_allStored {lessonID : UUID} {config : ConfigMessage}
    (hConfig : config.Fits)
    (h : x.createManualInteraction env tts teacher lessonID config = some (.ok x'))
    (hStored : x.AllStored) : x'.AllStored := by
  obtain ⟨-, configJSON, lessonInteractions, hInsert, rfl, stored, hOk, hAudio⟩ :=
    Site.createManualInteraction_cases h
  have hNew : Stored config.kind configJSON :=
    stored_of_synthesized
      (.created hConfig ((handlerConfigFromCreateProto_chosen config).trans hOk)) hAudio
  intro i hi
  have hFind := Table.mem_rows_iff.mp hi
  rw [Table.find_insert hInsert] at hFind
  by_cases hSame : i.id = env.newID
  · rw [if_pos hSame] at hFind
    cases hFind
    simpa [dbStringToKind_kindToDBString] using hNew
  · rw [if_neg hSame] at hFind
    simpa [Function.update_of_ne hSame] using hStored i (Table.mem_rows_iff.mpr hFind)

end Service

/-- An interaction that a student leaves unanswered, whatever configuration is stored for it: the
page's answer is taken, and scores 0 without a call of an AI model or a download.  Of the
configurations that a handler would make of a message by itself the same holds but for a multiple
choice without correct answers, for which the service does not ask that handler. -/
theorem unanswered_scores_zero (fold : Char → Char) {i : LessonInteractionRow} {cfg : ConfigJSON}
    (hConfig : i.config = marshalConfig cfg) (stripAnswers : Bool)
    (metrics : Option ResponseMetrics) :
    (Stored (dbStringToKind i.kind) cfg →
      UnansweredIsZero fold (interactionToProto i stripAnswers) cfg metrics) ∧
    ∀ message : ConfigMessage, message.Fits →
      handlerConfigFromCreateProto (dbStringToKind i.kind) message = .ok cfg →
        (UnansweredIsZero fold (interactionToProto i stripAnswers) cfg metrics ↔
          ¬(dbStringToKind i.kind = .multipleChoice ∧ cfg.correctAnswers = [])) := by
  have hDecodes : dbStringToKind i.kind = cfg.kind → cfg.Fits →
      (UnansweredIsZero fold (interactionToProto i stripAnswers) cfg metrics ↔
        cfg.AsksForAnswer) := by
    intro hKind hFits
    have hShown : (interactionToProto i stripAnswers).config = some (cfg.apply stripAnswers) := by
      show applyConfig (dbStringToKind i.kind) i.config stripAnswers = _
      rw [applyConfig, hConfig, hKind, unmarshalConfig_marshalConfig hFits]
      rfl
    exact unansweredIsZero_iff fold hKind hShown metrics
  constructor
  · intro hStored
    obtain ⟨hKind, hFits, hAsks⟩ := hStored.spec
    exact (hDecodes hKind.symm hFits).mpr hAsks
  · intro message hMessage hMade
    obtain ⟨hKind, hFits, hAsks⟩ := handlerConfigFromCreateProto_spec hMessage hMade
    exact (hDecodes hKind.symm hFits).trans hAsks

theorem unanswered_scores_zero_sample :
    UnansweredIsZero Char.toLower (interactionToProto
      (storedRow (.multipleChoice ["a", "b"] [0])) true) (.multipleChoice ["a", "b"] [0]) none ∧
    ¬UnansweredIsZero Char.toLower (interactionToProto
      (storedRow (.multipleChoice ["a", "b"] [])) true) (.multipleChoice ["a", "b"] []) none := by
  have hOne : (ConfigMessage.mcq ⟨"", ["a", "b"], 0, [0]⟩).Fits := ⟨by decide, by decide⟩
  have hNone : (ConfigMessage.mcq ⟨"", ["a", "b"], 0, []⟩).Fits := ⟨by decide, by decide⟩
  constructor
  · exact (unanswered_scores_zero Char.toLower (i := storedRow (.multipleChoice ["a", "b"] [0])) rfl
      true none).1 (.created hOne rfl)
  · have hMade := (unanswered_scores_zero Char.toLower
      (i := storedRow (.multipleChoice ["a", "b"] [])) rfl true none).2 _ hNone rfl
    exact mt hMade.mp fun hNot => hNot ⟨rfl, rfl⟩

end Richter.Interactions
