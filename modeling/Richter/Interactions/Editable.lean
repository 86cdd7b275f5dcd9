import Richter.Interactions.Accepted
import Richter.Interactions.GeminiAudio
import Richter.Interactions.Site

/-! The questions that an AI model generates, in a teacher's editor: it reads the stored
configuration with the answers, and sends it back (`UpdateInteraction`). -/

namespace Richter.Interactions

open Lib
open Lessons (trimSpace)

/-- `readingGeminiItem`. -/
structure ReadingGeminiItem where
  prompt : String
  explanation : String
  startSeconds : ℚ
  mode : String
  passageMarkdown : String
  question : String
  expectedAnswer : String

/-- `ParseGeminiItem` of the handler of readings. -/
def parseReadingGeminiItem (item : ReadingGeminiItem) : Except String ParsedItem :=
  if trimSpace item.passageMarkdown = "" then .error "reading: passage_markdown empty"
  else if item.mode = "open_answer" && trimSpace item.question = "" then
    .error "reading: question empty for open_answer mode"
  else if item.mode = "open_answer" && trimSpace item.expectedAnswer = "" then
    .error "reading: expected_answer empty for open_answer mode"
  else
    let mode :=
      if item.mode ≠ "pronunciation" && item.mode ≠ "open_answer" then "pronunciation"
      else item.mode
    .ok ⟨item.prompt, item.explanation, item.startSeconds,
      .reading mode item.passageMarkdown item.question item.expectedAnswer⟩

/-- An item for any of the kinds that generate. -/
inductive GeneratedItem
  | static (item : GeminiItem)
  | reading (item : ReadingGeminiItem)

namespace GeneratedItem

/-- `ParseGeminiItem` of the handler of the item's kind. -/
def parse : GeneratedItem → Except String ParsedItem
  | static item => parseGeminiItem item
  | reading item => parseReadingGeminiItem item

/-- The numbers of an item are those of its fields' type. -/
def Fits : GeneratedItem → Prop
  | static item => item.Fits
  | reading _ => True

/-- What the editor asks of a configuration beyond `ParseGeminiItem`: enough options, indexes that a
message can carry, an accepted answer for each blank, and no expected answer to a question that is
not an open one. -/
def Editable : GeneratedItem → Prop
  | static (.singleChoice _ options correctAnswer _ _) =>
      2 ≤ options.length ∧ correctAnswer < 2 ^ 31
  | static (.multipleChoice _ options correctAnswers _ _) =>
      2 ≤ options.length ∧ ∀ a ∈ correctAnswers, a < 2 ^ 31
  | static (.fillBlank _ _ _ _ blanks) => ∀ b ∈ blanks, b.accepted ≠ []
  | static (.listening ..) => True
  | reading item => item.mode = "open_answer" ∨ trimSpace item.question = "" ∨
      trimSpace item.expectedAnswer = ""

end GeneratedItem

/-- The numbers of a response are those of an answer's fields, `int32`. -/
def ResponseJSON.Fits : ResponseJSON → Prop
  | .singleChoice selected => FitsInt 32 selected
  | .multipleChoice selectedIndexes => ∀ i ∈ selectedIndexes, FitsInt 32 i
  | .listening comprehensionAnswers => ∀ i ∈ comprehensionAnswers, FitsInt 32 i
  | _ => True

/-- The stores hold an interaction, with the kind of its configuration. -/
structure Site.Holds (x : Site) (interactionID : UUID) (cfg : ConfigJSON) : Prop where
  row : ∃ i, x.db.lessonInteractions.find interactionID = some i ∧ i.kind = kindToDBString cfg.kind
  config : x.config interactionID = cfg

section Grades

variable (lower : LowerCase) (fold : Char → Char)

/-- What the `Grade` of a handler comes to, or the `GradeWithContext` with the functions of the AI
service. -/
def gradeWith (models : GradingModels) (lang : String) (withContext : Bool)
    (kind : InteractionKind) (cfg : ConfigJSON) (resp : ResponseJSON) : Outcome :=
  handlerGrade withContext
    (askedOutcome fold withContext (buildGradingDeps (models.engine lower) lang) kind cfg resp)
    kind cfg resp

/-- Two configurations grade every response of their kind alike, whatever the models answer. -/
def GradesAlike (cfg cfg' : ConfigJSON) : Prop :=
  ∀ (models : GradingModels) (lang : String) (withContext : Bool) (resp : ResponseJSON),
    resp.kind = cfg.kind → resp.Fits →
    gradeWith lower fold models lang withContext cfg.kind cfg resp =
      gradeWith lower fold models lang withContext cfg'.kind cfg' resp

/-- A teacher reads the configuration of an interaction and sends it back unchanged, and nothing
around the handler fails: the update succeeds, and leaves the interaction with its kind and its
grades. -/
def Site.SendsBack (x : Site) (env : SiteEnv) (tts : Option String) (interactionID : UUID)
    (kind : InteractionKind) : Prop :=
  ∃ message x' cfg,
    applyConfig kind (marshalConfig (x.config interactionID)) false = some message ∧
    x.updateInteraction { env with failure := none } none (tts.map .ok) (.ok ()) interactionID
      (some message) = .ok x' ∧
    x'.Holds interactionID cfg ∧ cfg.kind = kind ∧
    GradesAlike lower fold (x.config interactionID) cfg

end Grades

section Alike

variable {lower : LowerCase} {fold : Char → Char} {cfg : ConfigJSON}

theorem GradesAlike.refl (cfg : ConfigJSON) : GradesAlike lower fold cfg cfg :=
  fun _ _ _ _ _ _ => rfl

@[simp] theorem kind_setAudioObjectKey (key : String) (cfg : ConfigJSON) :
    (cfg.setAudioObjectKey key).kind = cfg.kind := by
  cases cfg <;> rfl

@[simp] theorem fits_setAudioObjectKey (key : String) (cfg : ConfigJSON) :
    (cfg.setAudioObjectKey key).Fits ↔ cfg.Fits := by
  cases cfg <;> rfl

/-- The audio plays no part in a grade. -/
theorem gradeWith_setAudioObjectKey {models : GradingModels} {lang key : String}
    {withContext : Bool} {kind : InteractionKind} {resp : ResponseJSON} :
    gradeWith lower fold models lang withContext kind (cfg.setAudioObjectKey key) resp =
      gradeWith lower fold models lang withContext kind cfg resp := by
  cases cfg <;> rfl

theorem gradesAlike_synthesized {tts : Option (Except String String)}
    {stored configJSON : ConfigJSON} {oldConfigJSON : Option ConfigJSON}
    (h : maybeSynthesizeListeningAudio tts stored oldConfigJSON = .ok configJSON) :
    configJSON.kind = stored.kind ∧
      (GradesAlike lower fold cfg configJSON ↔ GradesAlike lower fold cfg stored) := by
  rcases maybeSynthesizeListeningAudio_cases h with rfl | ⟨key, rfl⟩
  · exact ⟨rfl, Iff.rfl⟩
  · exact ⟨kind_setAudioObjectKey key stored, by
      simp only [GradesAlike, kind_setAudioObjectKey, gradeWith_setAudioObjectKey]⟩

end Alike

/-! ### The update -/

section Update

variable {x x' : Site} {env : SiteEnv} {tts : Option String} {interactionID : UUID}
  {message : ConfigMessage} {stored : ConfigJSON}

theorem kind_of_configFromUpdateProto (h : configFromUpdateProto message = .ok stored) :
    stored.kind = message.kind := by
  cases message with
  | mcq mcq =>
    simp only [configFromUpdateProto, ConfigMessage.kind] at h ⊢
    split
    · next hSome =>
      rw [if_pos hSome] at h
      rw [← (multipleChoiceProtoToJSON_eq_ok.mp h).2]
      rfl
    · next hNone =>
      rw [if_neg hNone] at h
      rw [← (singleChoiceProtoToJSON_eq_ok.mp h).2]
      rfl
  | fillBlank => rw [← (fillBlankProtoToJSON_eq_ok.mp h).2]; rfl
  | listening => rw [← (listeningProtoToJSON_eq_ok.mp h).2]; rfl
  | reading => rw [← (readingProtoToJSON_eq_ok.mp h).2]; rfl
  | writing =>
    simp only [configFromUpdateProto, writingProtoToJSON, invalidConfig, ite_error_eq_ok] at h
    obtain ⟨-, -, hOk⟩ := h
    cases hOk
    rfl

/-- A synthesiser that does not fail stops no update. -/
theorem maybeSynthesizeListeningAudio_ok (tts : Option String) (configJSON : ConfigJSON)
    (oldConfigJSON : Option ConfigJSON) : ∃ configJSON',
      maybeSynthesizeListeningAudio (tts.map .ok) configJSON oldConfigJSON = .ok configJSON' := by
  cases tts with
  | none => exact ⟨_, rfl⟩
  | some key =>
    simp only [Option.map_some, maybeSynthesizeListeningAudio]
    split
    · exact ⟨_, rfl⟩
    · split
      · exact ⟨_, rfl⟩
      · exact ⟨_, rfl⟩

/-- With no failure around it, an update with a message comes to what its handler makes of it. -/
theorem updateInteraction_eq_ok {cfg : ConfigJSON} (hHolds : x.Holds interactionID cfg) :
    x.updateInteraction { env with failure := none } none (tts.map .ok) (.ok ()) interactionID
        (some message) = .ok x' ↔
      ∃ stored configJSON, configFromUpdateProto message = .ok stored ∧
        maybeSynthesizeListeningAudio (tts.map .ok) stored (some cfg) = .ok configJSON ∧
        x' = { x with
          db := updateLessonInteraction interactionID (kindToDBString message.kind) x.db
          config := Function.update x.config interactionID configJSON } := by
  obtain ⟨⟨i, hFind, -⟩, rfl⟩ := hHolds
  simp only [Site.updateInteraction, hFind, one, orFailure, Except.mapError, bind, Except.bind]
  cases hStored : configFromUpdateProto message with
  | error e => simp
  | ok stored =>
    simp only
    cases hAudio : maybeSynthesizeListeningAudio (tts.map .ok) stored
        (some (x.config interactionID)) with
    | error e => simp [hAudio]
    | ok configJSON =>
      simp [hAudio, pure, Except.pure, eq_comm]

/-- The update leaves the interaction with the kind of the message. -/
theorem holds_updated {cfg configJSON : ConfigJSON} (hHolds : x.Holds interactionID cfg)
    (hKind : configJSON.kind = message.kind) :
    ({ x with
      db := updateLessonInteraction interactionID (kindToDBString message.kind) x.db
      config := Function.update x.config interactionID configJSON } : Site).Holds interactionID
        configJSON := by
  obtain ⟨⟨i, hFind, -⟩, -⟩ := hHolds
  refine ⟨⟨{ i with kind := kindToDBString message.kind }, ?_, ?_⟩, Function.update_self ..⟩
  · have hID : i.id = interactionID := Table.find_key hFind
    simp [updateLessonInteraction, hFind, hID]
  · rw [hKind]

end Update

/-! ### The kinds -/

section Kinds

variable (lower : LowerCase) (fold : Char → Char)

/-- What the editor sends back for a configuration is accepted, with the same kind and the same
grades. -/
def ResentAlike (cfg : ConfigJSON) : Prop :=
  ∃ stored, configFromUpdateProto (cfg.apply false) = .ok stored ∧ stored.kind = cfg.kind ∧
    GradesAlike lower fold cfg stored

/-- Models that are not asked. -/
def silentModels : GradingModels where
  sttTranscribe := fun _ => .error "timeout"
  generateContent := fun _ => none
  text := fun _ _ _ _ _ => none
  downloadAudio := fun _ => none

variable {lower fold} in
/-- The update keeps what its handler has accepted. -/
theorem sendsBack_iff_resentAlike {x : Site} {interactionID : UUID} {cfg : ConfigJSON}
    (hHolds : x.Holds interactionID cfg) (hFits : cfg.Fits) (env : SiteEnv) (tts : Option String) :
    x.SendsBack lower fold env tts interactionID cfg.kind ↔ ResentAlike lower fold cfg := by
  have hRead : applyConfig cfg.kind (marshalConfig cfg) false = some (cfg.apply false) := by
    rw [applyConfig, unmarshalConfig_marshalConfig hFits]
    rfl
  unfold Site.SendsBack
  rw [hHolds.config]
  constructor
  · rintro ⟨message, x', cfg', hMessage, hUpdate, hHolds', hKind, hAlike⟩
    obtain rfl : cfg.apply false = message := Option.some.inj (hRead.symm.trans hMessage)
    obtain ⟨stored, configJSON, hStored, hAudio, rfl⟩ :=
      (updateInteraction_eq_ok hHolds).mp hUpdate
    obtain rfl : configJSON = cfg' := (Function.update_self ..).symm.trans hHolds'.config
    obtain ⟨hSame, hGrades⟩ := gradesAlike_synthesized hAudio
    exact ⟨stored, hStored, hSame.symm.trans hKind, hGrades.mp hAlike⟩
  · rintro ⟨stored, hStored, hKind, hAlike⟩
    obtain ⟨configJSON, hAudio⟩ := maybeSynthesizeListeningAudio_ok tts stored (some cfg)
    obtain ⟨hSame, hGrades⟩ := gradesAlike_synthesized hAudio
    exact ⟨_, _, configJSON, hRead,
      (updateInteraction_eq_ok hHolds).mpr ⟨stored, configJSON, hStored, hAudio, rfl⟩,
      holds_updated hHolds (hSame.trans (kind_of_configFromUpdateProto hStored)),
      hSame.trans hKind, hGrades.mpr hAlike⟩

theorem lt_of_toInt32 {n : Int} (h : toInt32 n = n) : n < 2 ^ 31 := by
  have hFits := fitsInt_toInt32 n
  rw [h] at hFits
  exact hFits.2

theorem singleChoiceGrade_eq_one_iff {options : List String} {correctAnswer selected : Int} :
    (singleChoiceGrade (.singleChoice options correctAnswer) (.singleChoice selected)).score = 1 ↔
      selected = correctAnswer := by
  change (if selected = correctAnswer then (1 : ℚ) else 0) = 1 ↔ _
  simp

theorem resentAlike_singleChoice {options : List String} {correctAnswer : Int}
    (hRange : 0 ≤ correctAnswer ∧ correctAnswer < options.length) :
    ResentAlike lower fold (.singleChoice options correctAnswer) ↔
      2 ≤ options.length ∧ correctAnswer < 2 ^ 31 := by
  constructor
  · rintro ⟨stored, hStored, -, hAlike⟩
    obtain ⟨⟨hTwo, -, -⟩, rfl⟩ := singleChoiceProtoToJSON_eq_ok.mp hStored
    -- The answer that the message carries is right afterwards.
    have hGrades := Outcome.graded.inj (hAlike silentModels "" false
      (.singleChoice (toInt32 correctAnswer)) rfl (fitsInt_toInt32 _))
    have hScores := (congrArg Grade.score hGrades).trans (singleChoiceGrade_eq_one_iff.mpr rfl)
    exact ⟨hTwo, lt_of_toInt32 (singleChoiceGrade_eq_one_iff.mp hScores)⟩
  · rintro ⟨hTwo, hSmall⟩
    have hSame := toInt32_of_lt hRange.1 hSmall
    refine ⟨.singleChoice options correctAnswer, ?_, rfl, .refl _⟩
    refine singleChoiceProtoToJSON_eq_ok.mpr ?_
    simpa only [Bool.false_eq_true, if_false, hSame, and_true] using ⟨hTwo, hRange⟩

/-- A selection is right only if it has all the right answers. -/
theorem subset_of_multipleChoiceGrade {options : List String} {correctAnswers selected : List Int}
    (h : (multipleChoiceGrade (.multipleChoice options correctAnswers)
      (.multipleChoice selected)).score = 1) : correctAnswers ⊆ selected := by
  by_cases hLength : correctAnswers.dedup.length = selected.dedup.length
  · by_cases hAll : (correctAnswers.dedup.all fun a => a ∈ selected.dedup) = true
    · intro a ha
      simp only [List.all_eq_true, decide_eq_true_eq] at hAll
      exact List.mem_dedup.mp (hAll a (List.mem_dedup.mpr ha))
    · have hZero : multipleChoiceGrade (.multipleChoice options correctAnswers)
          (.multipleChoice selected) = ⟨0, 1, ""⟩ :=
        (if_neg (not_not.mpr hLength)).trans (if_neg hAll)
      rw [hZero] at h
      exact absurd h zero_ne_one
  · have hZero : multipleChoiceGrade (.multipleChoice options correctAnswers)
        (.multipleChoice selected) = ⟨0, 1, ""⟩ := if_pos hLength
    rw [hZero] at h
    exact absurd h zero_ne_one

theorem multipleChoiceGrade_self (options : List String) (correctAnswers : List Int) :
    multipleChoiceGrade (.multipleChoice options correctAnswers) (.multipleChoice correctAnswers) =
      ⟨1, 1, ""⟩ := by
  simp [multipleChoiceGrade, ConfigJSON.correctAnswers, ResponseJSON.selectedIndexes]

theorem resentAlike_multipleChoice {options : List String} {correctAnswers : List Int}
    (hSome : correctAnswers ≠ [])
    (hRange : ∀ a ∈ correctAnswers, 0 ≤ a ∧ a < options.length) :
    ResentAlike lower fold (.multipleChoice options correctAnswers) ↔
      2 ≤ options.length ∧ ∀ a ∈ correctAnswers, a < 2 ^ 31 := by
  have hSent : configFromUpdateProto ((ConfigJSON.multipleChoice options correctAnswers).apply
      false) = multipleChoiceProtoToJSON ⟨"", options, -1, correctAnswers.map toInt32⟩ := by
    simp [configFromUpdateProto, ConfigJSON.apply, hSome]
  unfold ResentAlike
  rw [hSent]
  constructor
  · rintro ⟨stored, hStored, -, hAlike⟩
    obtain ⟨⟨hTwo, -⟩, rfl⟩ := multipleChoiceProtoToJSON_eq_ok.mp hStored
    -- The answers that the message carries are right afterwards.
    have hGrades := Outcome.graded.inj (hAlike silentModels "" false
      (.multipleChoice (correctAnswers.map toInt32)) rfl fun n hn => by
        obtain ⟨a, -, rfl⟩ := List.mem_map.mp hn
        exact fitsInt_toInt32 a)
    have hSelf := hGrades.trans (multipleChoiceGrade_self options (correctAnswers.map toInt32))
    refine ⟨hTwo, fun a ha => ?_⟩
    obtain ⟨b, -, rfl⟩ :=
      List.mem_map.mp (subset_of_multipleChoiceGrade (congrArg Grade.score hSelf) ha)
    exact (fitsInt_toInt32 b).2
  · rintro ⟨hTwo, hSmall⟩
    have hSame : correctAnswers.map toInt32 = correctAnswers :=
      (List.map_congr_left fun a ha => toInt32_of_lt (hRange a ha).1 (hSmall a ha)).trans
        (List.map_id _)
    rw [hSame]
    exact ⟨_, multipleChoiceProtoToJSON_eq_ok.mpr ⟨⟨hTwo, hRange⟩, rfl⟩, rfl, .refl _⟩

theorem resentAlike_fillBlank {template : String} {blanks : List Blank}
    (hTemplate : trimSpace template ≠ "")
    (hCount : countPlaceholders template.length template.toList = blanks.length) :
    ResentAlike lower fold (.fillBlank template blanks) ↔ ∀ b ∈ blanks, b.accepted ≠ [] := by
  have hSent : (ConfigJSON.fillBlank template blanks).apply false = .fillBlank template blanks := by
    simp [ConfigJSON.apply]
  unfold ResentAlike
  rw [hSent]
  constructor
  · rintro ⟨stored, hStored, -, -⟩
    exact (fillBlankProtoToJSON_eq_ok.mp hStored).1.2.2
  · intro hAccepted
    exact ⟨_, fillBlankProtoToJSON_eq_ok.mpr ⟨⟨hTemplate, hCount, hAccepted⟩, rfl⟩, rfl, .refl _⟩

theorem resentAlike_listening {audioObjectKey question : String} {options : List String}
    {correctAnswer : Int} (hQuestion : trimSpace question ≠ "") (hFour : options.length = 4)
    (hRange : 0 ≤ correctAnswer ∧ correctAnswer < options.length) :
    ResentAlike lower fold
      (.listening audioObjectKey (trimSpace question) 0 [⟨"", options, correctAnswer⟩]) := by
  have hSame : toInt32 correctAnswer = correctAnswer := toInt32_of_lt hRange.1 (by omega)
  refine ⟨.listening audioObjectKey (trimSpace question) 0 [⟨"", options, correctAnswer⟩],
    listeningProtoToJSON_eq_ok.mpr ⟨⟨?_, by simp [mcqConfigsFromJSON], ?_⟩, ?_⟩, rfl, .refl _⟩
  · simpa using hQuestion
  · simp only [mcqConfigsFromJSON, List.map_cons, List.map_nil, List.forall_mem_singleton,
      Bool.false_eq_true, if_false, hSame]
    exact ⟨by omega, hRange⟩
  · simp [mcqConfigsFromJSON, hSame]

end Kinds

/-! ### Readings -/

section Readings

variable {lower : LowerCase} {fold : Char → Char} {models : GradingModels}
  {lang mode mode' passageMarkdown question expectedAnswer : String}

theorem gradeAudio_withoutAnswer (h : trimSpace question = "" ∨ trimSpace expectedAnswer = "")
    (audioMP3 : List UInt8) :
    models.gradeAudio lower lang audioMP3 passageMarkdown question expectedAnswer =
      models.gradeAudio lower lang audioMP3 passageMarkdown question "" := by
  simp only [GradingModels.gradeAudio, buildTextGradingPrompt_withoutAnswer h]

/-- A speech recogniser that hears a digit, and a model that knows one prompt. -/
def modelOfPrompt (prompt : String) : GradingModels where
  sttTranscribe := fun _ => .ok "1"
  generateContent := fun p => some (.ok ⟨"", if p = prompt then 1 else 0, 0, ""⟩)
  text := fun _ _ _ _ _ => none
  downloadAudio := fun _ => some (.ok [])

theorem gradeAudio_modelOfPrompt (prompt : String) (audioMP3 : List UInt8) :
    (modelOfPrompt prompt).gradeAudio lower lang audioMP3 passageMarkdown question expectedAnswer =
      some (.ok ⟨"1", if buildTextGradingPrompt lang passageMarkdown question expectedAnswer "1" =
        prompt then 1 else 0, 0, ""⟩) := by
  have hHeard : trimSpace "1" ≠ "" := by decide +kernel
  simp [GradingModels.gradeAudio, modelOfPrompt, hHeard, not_isSTTHallucination_digit]

theorem gradeWith_modelOfPrompt {prompt : String} (hQuestion : question ≠ "") :
    gradeWith lower fold (modelOfPrompt prompt) lang true .reading
        (.reading mode passageMarkdown question expectedAnswer) (.reading "key") =
      .graded ⟨if buildTextGradingPrompt lang passageMarkdown question expectedAnswer "1" = prompt
        then 1 / 2 else 0, 1, "Bạn đã nói: \"1\"\n\n"⟩ := by
  have hKey : trimSpace "key" ≠ "" := by decide +kernel
  have hDownload : (modelOfPrompt prompt).downloadAudio "key" = some (.ok []) := rfl
  by_cases hSame : buildTextGradingPrompt lang passageMarkdown question expectedAnswer "1" = prompt
  all_goals
    norm_num [gradeWith, handlerGrade, askedOutcome, readingGradeWithContext, buildGradingDeps,
      GradingModels.engine, ConfigJSON.passageMarkdown, ConfigJSON.question,
      ConfigJSON.expectedAnswer, ResponseJSON.audioObjectKey, gradeAudio_modelOfPrompt, hKey,
      hDownload, hQuestion, hSame, clamp01]
    decide

/-- Without its expected answer a reading is graded as before just when the prompt did not have
it. -/
theorem gradesAlike_withoutAnswer :
    GradesAlike lower fold (.reading mode passageMarkdown question expectedAnswer)
      (.reading mode' passageMarkdown question "") ↔
      trimSpace question = "" ∨ trimSpace expectedAnswer = "" := by
  constructor
  · intro hAlike
    by_contra hNot
    obtain ⟨hQuestion, hExpected⟩ := not_or.mp hNot
    have hSome : question ≠ "" := by
      rintro rfl
      exact hQuestion Lessons.trimSpace_empty
    let prompt := buildTextGradingPrompt "en" passageMarkdown question expectedAnswer "1"
    have hGrades := hAlike (modelOfPrompt prompt) "en" true (.reading "key") rfl trivial
    have hOther : buildTextGradingPrompt "en" passageMarkdown question "" "1" ≠ prompt :=
      (buildTextGradingPrompt_withAnswer hQuestion hExpected).symm
    simp only [ConfigJSON.kind, gradeWith_modelOfPrompt hSome] at hGrades
    rw [if_pos rfl, if_neg hOther] at hGrades
    have hScores := congrArg Grade.score (Outcome.graded.inj hGrades)
    norm_num at hScores
  · intro h models lang withContext resp hKind hFits
    cases withContext with
    | false => rfl
    | true =>
      have hAudio : ∀ audioMP3,
          models.gradeAudio lower lang audioMP3 passageMarkdown question expectedAnswer =
            models.gradeAudio lower lang audioMP3 passageMarkdown question "" :=
        gradeAudio_withoutAnswer h
      simp only [gradeWith, handlerGrade, askedOutcome, readingGradeWithContext, buildGradingDeps,
        GradingModels.engine, ConfigJSON.kind, ConfigJSON.passageMarkdown, ConfigJSON.question,
        ConfigJSON.expectedAnswer, Option.bind_some, hAudio]

theorem parseReadingGeminiItem_eq_ok {item : ReadingGeminiItem} {parsed : ParsedItem} :
    parseReadingGeminiItem item = .ok parsed ↔
      (trimSpace item.passageMarkdown ≠ "" ∧ (item.mode = "open_answer" →
        trimSpace item.question ≠ "" ∧ trimSpace item.expectedAnswer ≠ "")) ∧
      ⟨item.prompt, item.explanation, item.startSeconds,
        .reading (if item.mode = "open_answer" then "open_answer" else "pronunciation")
          item.passageMarkdown item.question item.expectedAnswer⟩ = parsed := by
  have hMode : (if item.mode ≠ "pronunciation" && item.mode ≠ "open_answer" then "pronunciation"
      else item.mode) = if item.mode = "open_answer" then "open_answer" else "pronunciation" := by
    by_cases hOpen : item.mode = "open_answer"
    · simp [hOpen]
    · by_cases hPronunciation : item.mode = "pronunciation" <;> simp [hOpen, hPronunciation]
  simp only [parseReadingGeminiItem, hMode]
  simp only [ite_error_eq_ok, Bool.and_eq_true, decide_eq_true_eq, not_and, Except.ok.injEq, ne_eq,
    forall_and, and_assoc]

theorem resentAlike_reading (hPassage : trimSpace passageMarkdown ≠ "")
    (hOpen : mode = "open_answer" → trimSpace question ≠ "") :
    ResentAlike lower fold
      (.reading (if mode = "open_answer" then "open_answer" else "pronunciation") passageMarkdown
        question expectedAnswer) ↔
      mode = "open_answer" ∨ trimSpace question = "" ∨ trimSpace expectedAnswer = "" := by
  by_cases hMode : mode = "open_answer"
  · simp only [hMode, if_true, true_or, iff_true]
    exact ⟨.reading "open_answer" passageMarkdown question expectedAnswer,
      readingProtoToJSON_eq_ok.mpr ⟨⟨hPassage, fun _ => hOpen hMode⟩, rfl⟩, rfl, .refl _⟩
  · simp only [hMode, if_false, false_or]
    have hDropped : ResentAlike lower fold
        (.reading "pronunciation" passageMarkdown question expectedAnswer) ↔
        GradesAlike lower fold (.reading "pronunciation" passageMarkdown question expectedAnswer)
          (.reading "pronunciation" passageMarkdown question "") := by
      constructor
      · rintro ⟨stored, hStored, -, hAlike⟩
        obtain ⟨-, rfl⟩ := readingProtoToJSON_eq_ok.mp hStored
        exact hAlike
      · intro hAlike
        exact ⟨.reading "pronunciation" passageMarkdown question "",
          readingProtoToJSON_eq_ok.mpr ⟨⟨hPassage, nofun⟩, rfl⟩, rfl, hAlike⟩
    exact hDropped.trans gradesAlike_withoutAnswer

end Readings

/-! ### Generated questions -/

section Generated

variable {item : GeneratedItem} {parsed : ParsedItem}

theorem fits_of_parse (hItem : item.Fits) (hParsed : item.parse = .ok parsed) :
    parsed.config.Fits := by
  cases item with
  | static item => exact (gradable_generated hItem hParsed).2
  | reading item =>
    obtain ⟨-, rfl⟩ := parseReadingGeminiItem_eq_ok.mp hParsed
    trivial

/-- What is generated goes through the editor as it is, with the audio that was made for it or
without, just when it is editable. -/
theorem resentAlike_iff (lower : LowerCase) (fold : Char → Char)
    (hParsed : item.parse = .ok parsed) (key : String) :
    ResentAlike lower fold (parsed.config.setAudioObjectKey key) ↔ item.Editable := by
  match item, hParsed with
  | .static (.singleChoice ..), hParsed =>
    obtain ⟨hRange, rfl⟩ := parseGeminiItem_singleChoice.mp hParsed
    exact resentAlike_singleChoice lower fold hRange
  | .static (.multipleChoice ..), hParsed =>
    obtain ⟨⟨hSome, hRange⟩, rfl⟩ := parseGeminiItem_multipleChoice.mp hParsed
    exact resentAlike_multipleChoice lower fold hSome hRange
  | .static (.fillBlank ..), hParsed =>
    obtain ⟨⟨hTemplate, hCount⟩, rfl⟩ := parseGeminiItem_fillBlank.mp hParsed
    exact resentAlike_fillBlank lower fold hTemplate hCount
  | .static (.listening ..), hParsed =>
    obtain ⟨⟨hQuestion, -, hFour, -, hRange⟩, rfl⟩ := parseGeminiItem_listening.mp hParsed
    exact iff_of_true (resentAlike_listening lower fold hQuestion hFour hRange) trivial
  | .reading item, hParsed =>
    obtain ⟨⟨hPassage, hOpen⟩, rfl⟩ := parseReadingGeminiItem_eq_ok.mp hParsed
    exact resentAlike_reading hPassage fun hMode => (hOpen hMode).1

/-- A generated question that the stores hold, with the audio that was made for it or without, can
be sent back unchanged just when the item is editable. -/
theorem generated_editable_iff (lower : LowerCase) (fold : Char → Char) (hItem : item.Fits)
    (hParsed : item.parse = .ok parsed) {x : Site} {interactionID : UUID} {key : String}
    (hHolds : x.Holds interactionID (parsed.config.setAudioObjectKey key)) (env : SiteEnv)
    (tts : Option String) :
    x.SendsBack lower fold env tts interactionID parsed.config.kind ↔ item.Editable := by
  have hFits := (fits_setAudioObjectKey key parsed.config).mpr (fits_of_parse hItem hParsed)
  rw [← resentAlike_iff lower fold hParsed key, ← kind_setAudioObjectKey key]
  exact sendsBack_iff_resentAlike hHolds hFits env tts

/-- A lesson with one question. -/
def heldQuestion (cfg : ConfigJSON) : Site where
  db :=
    { lessons := .ofList [⟨1, 0, none⟩]
      lessonInteractions := .ofList [⟨10, 1, kindToDBString cfg.kind, 0⟩]
      lessonAttempts := Table.empty
      lessonAttemptResponses := Table.empty }
  videoStorageKey := fun _ => none
  feedbackMode := fun _ => "hidden"
  config := fun _ => cfg
  tempGrades := Table.empty
  coverage := Table.empty
  background := []

theorem heldQuestion_holds (cfg : ConfigJSON) : (heldQuestion cfg).Holds 10 cfg where
  row := ⟨_, rfl, rfl⟩
  config := rfl

def asciiLower : LowerCase where
  toLower := Char.toLower
  toLower_digit c hDigit := by
    simp only [Char.isDigit, Bool.and_eq_true, decide_eq_true_eq] at hDigit
    have hNot : ¬('A'.val ≤ c.val ∧ c.val ≤ 'Z'.val) := fun hUpper =>
      absurd (UInt32.le_trans hUpper.1 hDigit.2) (by decide)
    exact dif_neg hNot

theorem generated_editable_iff_stack :
    (heldQuestion (.singleChoice ["a heap", "a stack"] 1)).SendsBack asciiLower Char.toLower {} none
      10 .singleChoice :=
  (generated_editable_iff asciiLower Char.toLower
    (show (GeneratedItem.static (.singleChoice "Where are pages kept?" ["a heap", "a stack"] 1 ""
      0)).Fits from ⟨by decide, by decide⟩) rfl
    (show (heldQuestion _).Holds 10 (ConfigJSON.setAudioObjectKey "" _) from heldQuestion_holds _)
    {} none).mpr ⟨by decide, by decide⟩

/-- A question with one option is generated, and its editor cannot save it. -/
theorem one_option_not_sentBack :
    (GeneratedItem.static (.singleChoice "Where are pages kept?" ["a stack"] 0 "" 0)).parse =
      .ok ⟨"Where are pages kept?", "", 0, .singleChoice ["a stack"] 0⟩ ∧
    ¬(heldQuestion (.singleChoice ["a stack"] 0)).SendsBack asciiLower Char.toLower {} none 10
      .singleChoice ∧
    (heldQuestion (.singleChoice ["a stack"] 0)).updateInteraction {} none none (.ok ()) 10
      (applyConfig .singleChoice (marshalConfig (.singleChoice ["a stack"] 0)) false) =
      .error (.connect .invalidArgument "single_choice: at least 2 options required") := by
  refine ⟨rfl, ?_, rfl⟩
  have hRange : (0 : Int) ≤ 0 ∧ (0 : Int) < ["a stack"].length := by decide
  have hFits : (ConfigJSON.singleChoice ["a stack"] 0).Fits := ⟨by decide, by decide⟩
  intro hSent
  have hResent := (sendsBack_iff_resentAlike (heldQuestion_holds _) hFits {} none).mp hSent
  exact absurd ((resentAlike_singleChoice asciiLower Char.toLower hRange).mp hResent).1 (by decide)

end Generated

end Richter.Interactions
