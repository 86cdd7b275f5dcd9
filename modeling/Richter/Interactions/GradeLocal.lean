import Richter.Interactions.Accepted
import Richter.Interactions.FillBlank

/-! The grading in the preview of a lesson: the renderers of `src/interactions` grade a response in
the page (`gradeLocal`), and the handlers of the server grade what the page would submit of it. -/

namespace Richter.Interactions

open Lib
open Lessons (trimSpace)

/-- `McqConfig` of the page; the list of the correct answers is left out when it is empty. -/
structure LocalMcq where
  question : String
  options : List String
  correctAnswer : Int
  correctAnswers : Option (List Int)
  deriving DecidableEq

inductive LocalConfig
  | mcq (cfg : LocalMcq)
  | fillBlank (template : String) (blanks : List Blank)
  | listening (audioObjectKey : String) (durationSeconds : Int) (audioSourceText : String)
      (comprehensionQuestions : List LocalMcq)
  | reading (mode passageMarkdown question expectedAnswer : String)
  | writing (prompt rubric expectedAnswer : String) (minWords : Int)
  deriving DecidableEq

def McqConfig.extract (v : McqConfig) : LocalMcq :=
  ⟨v.question, v.options, v.correctAnswer,
    if 0 < v.correctAnswers.length then some v.correctAnswers else none⟩

/-- `extractConfig`. -/
def extractConfig : ConfigMessage → LocalConfig
  | .mcq v => .mcq v.extract
  | .fillBlank template blanks => .fillBlank template blanks
  | .listening audioObjectKey durationSeconds audioSourceText comprehensionQuestions =>
      .listening audioObjectKey durationSeconds audioSourceText
        (comprehensionQuestions.map McqConfig.extract)
  | .reading mode passageMarkdown question expectedAnswer =>
      .reading (if mode = .openAnswer then "open_answer" else "pronunciation") passageMarkdown
        question expectedAnswer
  | .writing prompt rubric expectedAnswer minWords => .writing prompt rubric expectedAnswer minWords

/-- What a student view passes to `onAnswer`. -/
inductive LocalResponse
  | mcq (selected : Int) (selectedIndexes : Option (List Int))
  | fillBlank (answers : List String)
  | listening (comprehensionAnswers : List Int)
  | reading (audioObjectKey : String)
  | writing (text : String)
  deriving DecidableEq

structure LocalGrade where
  score : ℚ
  maxScore : ℚ
  deriving DecidableEq

/-- `WhiteSpace` and `LineTerminator` of JavaScript. -/
def isJsSpace (c : Char) : Bool :=
  c.toNat ∈ [0x09, 0x0a, 0x0b, 0x0c, 0x0d, 0x20, 0xa0, 0x1680, 0x2028, 0x2029, 0x202f, 0x205f,
    0x3000, 0xfeff] || (0x2000 ≤ c.toNat && c.toNat ≤ 0x200a)

/-- `String.prototype.trim`. -/
def jsTrim (s : String) : String :=
  String.ofList ((s.toList.dropWhile isJsSpace).reverse.dropWhile isJsSpace).reverse

/-- `mcqRenderer.gradeLocal`. -/
def mcqGradeLocal (cfg : LocalMcq) (selected : Int) : LocalGrade :=
  ⟨if 0 ≤ cfg.correctAnswer ∧ selected = cfg.correctAnswer then 1 else 0, 1⟩

/-- `multipleChoiceRenderer.gradeLocal`. -/
def multipleChoiceGradeLocal (cfg : LocalMcq) (selectedIndexes : Option (List Int)) : LocalGrade :=
  let correctAnswers := cfg.correctAnswers.getD []
  let selectedIndexes := selectedIndexes.getD []
  if correctAnswers.length = 0 then ⟨0, 1⟩
  else if correctAnswers.length = selectedIndexes.length ∧
      correctAnswers.all fun a => a ∈ selectedIndexes then ⟨1, 1⟩
  else ⟨0, 1⟩

section Fold

/-! `fold` takes a letter to the one that stands for it and its other case: two texts have the same
lower case when they are equal up to it. -/

variable (fold : Char → Char)

/-- The test of a blank in `fillBlankRenderer.gradeLocal`. -/
def Blank.acceptsLocally (b : Blank) (got : String) : Bool :=
  b.accepted.any fun want =>
    if b.caseSensitive then got = want else equalFold fold (jsTrim got) (jsTrim want)

/-- `fillBlankRenderer.gradeLocal`. -/
def fillBlankGradeLocal (blanks : List Blank) (answers : List String) : LocalGrade :=
  ⟨(blanks.zipIdx.countP fun (b, i) => b.acceptsLocally fold ((answers[i]?).getD "") : Nat),
    blanks.length⟩

/-- `listeningRenderer.gradeLocal`. -/
def listeningGradeLocal (questions : List LocalMcq) (answers : List Int) : LocalGrade :=
  let total := questions.length
  ⟨(questions.zipIdx.countP fun (q, idx) => (answers[idx]?).getD (-1) = q.correctAnswer : Nat),
    if total = 0 then 1 else total⟩

/-- `gradeLocal` of the renderer of a kind.  The one of writings, which does not know the server's
grade, is left out. -/
def gradeLocal (kind : InteractionKind) (cfg : LocalConfig) (resp : LocalResponse) :
    Option LocalGrade :=
  match kind, cfg, resp with
  | .singleChoice, .mcq cfg, .mcq selected _ => some (mcqGradeLocal cfg selected)
  | .multipleChoice, .mcq cfg, .mcq _ selectedIndexes =>
      some (multipleChoiceGradeLocal cfg selectedIndexes)
  | .fillBlank, .fillBlank _ blanks, .fillBlank answers =>
      some (fillBlankGradeLocal fold blanks answers)
  | .listening, .listening _ _ _ questions, .listening answers =>
      some (listeningGradeLocal questions answers)
  | _, _, _ => none

/-- The grade that the preview shows for a response to an interaction. -/
def previewGradeLocal (it : LessonInteractionMessage) (resp : LocalResponse) : Option LocalGrade :=
  (it.config.map extractConfig).bind fun cfg => gradeLocal fold it.kind cfg resp

/-- `Grade` of the handler of a kind without an AI grader. -/
def staticGrade (kind : InteractionKind) (cfg : ConfigJSON) (resp : ResponseJSON) : Option Grade :=
  match kind with
  | .singleChoice => some (singleChoiceGrade cfg resp)
  | .multipleChoice => some (multipleChoiceGrade cfg resp)
  | .fillBlank => some (fillBlankGrade fold cfg resp)
  | .listening => some (listeningGrade cfg resp)
  | _ => none

end Fold

section Projections

def LocalResponse.selected : LocalResponse → Option Int
  | .mcq selected _ => some selected
  | _ => none

def LocalResponse.selectedIndexes : LocalResponse → Option (List Int)
  | .mcq _ selectedIndexes => selectedIndexes
  | _ => none

def LocalResponse.answers : LocalResponse → Option (List String)
  | .fillBlank answers => some answers
  | _ => none

def LocalResponse.comprehensionAnswers : LocalResponse → Option (List Int)
  | .listening comprehensionAnswers => some comprehensionAnswers
  | _ => none

def LocalResponse.audioObjectKey : LocalResponse → Option String
  | .reading audioObjectKey => some audioObjectKey
  | _ => none

def LocalResponse.text : LocalResponse → Option String
  | .writing text => some text
  | _ => none

end Projections

structure ResponseMetrics where
  timeToAnswerMs : Option Int
  replayCount : Option Int

/-- `buildAttemptResponseInput`. -/
def buildAttemptResponseInput (it : LessonInteractionMessage) (localResp : Option LocalResponse)
    (metrics : Option ResponseMetrics) : AttemptResponseInput where
  interactionId := it.id
  timeToAnswerMs := (metrics.bind ResponseMetrics.timeToAnswerMs).getD 0
  replayCount := (metrics.bind ResponseMetrics.replayCount).getD 0
  response :=
    if it.kind = .multipleChoice then
      .mcqMultiple ((localResp.bind LocalResponse.selectedIndexes).getD [])
    else
      match it.config with
      | some (.fillBlank ..) => .fillBlank ((localResp.bind LocalResponse.answers).getD [])
      | some (.reading ..) => .reading ((localResp.bind LocalResponse.audioObjectKey).getD "")
      | some (.writing ..) => .writing ((localResp.bind LocalResponse.text).getD "")
      | some (.listening ..) =>
          .listening ((localResp.bind LocalResponse.comprehensionAnswers).getD [])
      | _ => .mcqSelected ((localResp.bind LocalResponse.selected).getD (-1))

/-- The grade that the server gives to a response as the page submits it. -/
def submittedGrade (fold : Char → Char) (cfg : ConfigJSON) (it : LessonInteractionMessage)
    (resp : LocalResponse) : Option LocalGrade := do
  let toJSON ← responseProtoToJSON it.kind
  let respJSON ← (toJSON (buildAttemptResponseInput it (some resp) none).response).toOption
  let grade ← staticGrade fold it.kind cfg respJSON
  return ⟨grade.score, grade.maxScore⟩

/-! The student views. -/

/-- `handleToggleMultiple`. -/
def toggle (prev : List Int) (idx : Int) : List Int :=
  if idx ∈ prev then prev.filter (· ≠ idx) else prev ++ [idx]

/-- The changes of single answers of a list, by their positions. -/
def changed {α : Type} (changes : List (Nat × α)) (answers : List α) : List α :=
  changes.foldl (fun answers (i, val) => answers.set i val) answers

/-- The index of an option that the page shows, which it sends as an `int32`. -/
def LocalMcq.Shows (cfg : LocalMcq) (idx : Int) : Prop :=
  0 ≤ idx ∧ idx < cfg.options.length ∧ FitsInt 32 idx

/-- The responses that the view of a kind passes to `onAnswer`. -/
inductive Produced : InteractionKind → LocalConfig → LocalResponse → Prop
  | singleChoice {cfg : LocalMcq} {idx : Int} : cfg.Shows idx →
      Produced .singleChoice (.mcq cfg) (.mcq idx (some []))
  | multipleChoice {cfg : LocalMcq} {clicks : List Int} : (∀ idx ∈ clicks, cfg.Shows idx) →
      clicks.foldl toggle [] ≠ [] →
      Produced .multipleChoice (.mcq cfg) (.mcq (-1) (some (clicks.foldl toggle [])))
  | fillBlank {template : String} {blanks : List Blank} (changes : List (Nat × String)) :
      Produced .fillBlank (.fillBlank template blanks)
        (.fillBlank (changed changes (blanks.map fun _ => "")))
  | listening {audioObjectKey audioSourceText : String} {durationSeconds : Int}
      {questions : List LocalMcq} {changes : List (Nat × Int)} :
      (∀ c ∈ changes, ∃ q, questions[c.1]? = some q ∧ q.Shows c.2) →
      Produced .listening (.listening audioObjectKey durationSeconds audioSourceText questions)
        (.listening (changed changes (questions.map fun _ => -1)))

/-! When the two agree. -/

/-- Of a selection that has all correct options, as they are sent: it is judged alike when no option
is listed twice, or when its size is neither that of the list nor that of the set. -/
def MultipleAlike (correctAnswers selectedIndexes : List Int) : Prop :=
  correctAnswers.map toInt32 ⊆ selectedIndexes →
    (∀ c ∈ correctAnswers, toInt32 c = c) ∧ correctAnswers.Nodup ∨
      selectedIndexes.length ≠ correctAnswers.length ∧
        ((∀ c ∈ correctAnswers, toInt32 c = c) →
          selectedIndexes.length ≠ correctAnswers.dedup.length)

/-- The page alone accepts an answer: the texts are equal without the white space that only
JavaScript trims. -/
def Blank.pageOnly (fold : Char → Char) (b : Blank) (got : String) : Bool :=
  !b.caseSensitive &&
    (b.accepted.any fun want => equalFold fold (jsTrim got) (jsTrim want)) &&
    b.accepted.all fun want => !equalFold fold (trimSpace got) (trimSpace want)

/-- The server alone accepts an answer: the page compares the white space too where case matters,
and does not trim what only Go trims. -/
def Blank.serverOnly (fold : Char → Char) (b : Blank) (got : String) : Bool :=
  if b.caseSensitive then
    !b.accepted.contains got && b.accepted.any fun want => trimSpace got = trimSpace want
  else
    (b.accepted.any fun want => equalFold fold (trimSpace got) (trimSpace want)) &&
      b.accepted.all fun want => !equalFold fold (jsTrim got) (jsTrim want)

/-- As many blanks are filled for the page alone as for the server alone. -/
def BlanksAlike (fold : Char → Char) (blanks : List Blank) (answers : List String) : Prop :=
  blanks.zipIdx.countP (fun (b, i) => b.pageOnly fold ((answers[i]?).getD "")) =
    blanks.zipIdx.countP fun (b, i) => b.serverOnly fold ((answers[i]?).getD "")

/-- A configuration and a response that the page and the server grade alike. -/
def Alike (fold : Char → Char) : ConfigJSON → LocalResponse → Prop
  | .singleChoice _ correctAnswer, .mcq selected _ =>
      toInt32 correctAnswer = correctAnswer ∨ selected ≠ toInt32 correctAnswer
  | .multipleChoice _ correctAnswers, .mcq _ selectedIndexes =>
      MultipleAlike correctAnswers (selectedIndexes.getD [])
  | .fillBlank _ blanks, .fillBlank answers => BlanksAlike fold blanks answers
  | _, _ => True

section Choices

variable {correctAnswer selected : Int} {correctAnswers selectedIndexes : List Int}

theorem singleChoice_alike (hCorrect : 0 ≤ correctAnswer) (hSelected : 0 ≤ selected)
    (hFits : FitsInt 32 selected) :
    ((0 ≤ toInt32 correctAnswer ∧ selected = toInt32 correctAnswer) ↔ selected = correctAnswer) ↔
      toInt32 correctAnswer = correctAnswer ∨ selected ≠ toInt32 correctAnswer := by
  by_cases hSame : toInt32 correctAnswer = correctAnswer
  · simp only [hSame, true_or, iff_true]
    exact ⟨fun h => h.2, fun h => ⟨hCorrect, h⟩⟩
  · have hNe : selected ≠ correctAnswer := by
      rintro rfl
      exact hSame (toInt32_of_fits hFits)
    simp only [hNe, iff_false, hSame, false_or]
    constructor
    · intro hNot hEq
      exact hNot ⟨hEq ▸ hSelected, hEq⟩
    · exact fun hNot hBoth => hNot hBoth.2

/-- The list that a selection is: distinct options that the page shows. -/
theorem toggled_spec {cfg : LocalMcq} {clicks : List Int} (h : ∀ idx ∈ clicks, cfg.Shows idx) :
    (clicks.foldl toggle []).Nodup ∧ ∀ idx ∈ clicks.foldl toggle [], cfg.Shows idx := by
  have hStep : ∀ prev idx, prev.Nodup → (∀ i ∈ prev, cfg.Shows i) → cfg.Shows idx →
      (toggle prev idx).Nodup ∧ ∀ i ∈ toggle prev idx, cfg.Shows i := by
    intro prev idx hNodup hShows hIdx
    unfold toggle
    split
    · exact ⟨hNodup.filter _, fun i hi => hShows i (List.mem_of_mem_filter hi)⟩
    · next hNew =>
      constructor
      · rw [List.nodup_append]
        refine ⟨hNodup, List.nodup_singleton _, fun a ha b hb hab => hNew ?_⟩
        rw [← List.mem_singleton.mp hb, ← hab]
        exact ha
      · intro i hi
        rcases List.mem_append.mp hi with hi | hi
        · exact hShows i hi
        · exact List.mem_singleton.mp hi ▸ hIdx
  have hFold : ∀ prev : List Int, prev.Nodup → (∀ i ∈ prev, cfg.Shows i) →
      (clicks.foldl toggle prev).Nodup ∧ ∀ i ∈ clicks.foldl toggle prev, cfg.Shows i := by
    induction clicks with
    | nil => exact fun prev hNodup hShows => ⟨hNodup, hShows⟩
    | cons idx clicks ih =>
      intro prev hNodup hShows
      obtain ⟨hNodup', hShows'⟩ := hStep prev idx hNodup hShows (h idx List.mem_cons_self)
      exact ih (fun i hi => h i (List.mem_cons_of_mem idx hi)) _ hNodup' hShows'
  exact hFold [] List.nodup_nil (by simp)

theorem all_mem_iff {xs ys : List Int} : (xs.all fun a => a ∈ ys) = true ↔ xs ⊆ ys := by
  simp only [List.all_eq_true, decide_eq_true_eq]
  rfl

/-- The server's comparison of the sets. -/
theorem multipleChoiceGrade_score (options : List String) (hNodup : selectedIndexes.Nodup) :
    multipleChoiceGrade (.multipleChoice options correctAnswers) (.multipleChoice selectedIndexes) =
      ⟨if correctAnswers ⊆ selectedIndexes ∧
        selectedIndexes.length = correctAnswers.dedup.length then 1 else 0, 1, ""⟩ := by
  unfold multipleChoiceGrade
  simp only [ConfigJSON.correctAnswers, ResponseJSON.selectedIndexes, hNodup.dedup]
  by_cases hLength : selectedIndexes.length = correctAnswers.dedup.length
  · rw [if_neg (by simp [hLength])]
    have hAll : (correctAnswers.dedup.all fun a => a ∈ selectedIndexes) = true ↔
        correctAnswers ⊆ selectedIndexes :=
      all_mem_iff.trans ⟨List.Subset.trans (List.subset_dedup _),
        List.Subset.trans (List.dedup_subset _)⟩
    by_cases hSubset : correctAnswers ⊆ selectedIndexes
    · rw [if_pos (hAll.mpr hSubset), if_pos ⟨hSubset, hLength⟩]
    · rw [if_neg (mt hAll.mp hSubset), if_neg fun h => hSubset h.1]
  · rw [if_pos (Ne.symm hLength), if_neg fun h => hLength h.2]

/-- The page's comparison of the lists. -/
theorem multipleChoiceGradeLocal_score (question : String) (options : List String) (n : Int)
    (sent : List Int) (hNe : selectedIndexes ≠ []) :
    multipleChoiceGradeLocal (McqConfig.extract ⟨question, options, n, sent⟩)
      (some selectedIndexes) =
      ⟨if sent ⊆ selectedIndexes ∧ selectedIndexes.length = sent.length then 1 else 0, 1⟩ := by
  have hSent : (McqConfig.extract ⟨question, options, n, sent⟩).correctAnswers.getD [] = sent := by
    cases sent <;> simp [McqConfig.extract]
  unfold multipleChoiceGradeLocal
  simp only [hSent, Option.getD_some]
  by_cases hEmpty : sent.length = 0
  · have hLength : selectedIndexes.length ≠ sent.length := by
      rw [hEmpty]
      simpa using hNe
    rw [if_pos hEmpty, if_neg fun h => hLength h.2]
  · rw [if_neg hEmpty]
    by_cases hBoth : sent ⊆ selectedIndexes ∧ selectedIndexes.length = sent.length
    · rw [if_pos ⟨hBoth.2.symm, all_mem_iff.mpr hBoth.1⟩, if_pos hBoth]
    · rw [if_neg fun h => hBoth ⟨all_mem_iff.mp h.2, h.1.symm⟩, if_neg hBoth]

theorem multipleChoice_alike (hFits : ∀ s ∈ selectedIndexes, FitsInt 32 s) :
    ((correctAnswers.map toInt32 ⊆ selectedIndexes ∧
        selectedIndexes.length = (correctAnswers.map toInt32).length) ↔
      (correctAnswers ⊆ selectedIndexes ∧
        selectedIndexes.length = correctAnswers.dedup.length)) ↔
      MultipleAlike correctAnswers selectedIndexes := by
  have hServer : correctAnswers ⊆ selectedIndexes →
      ∀ c ∈ correctAnswers, toInt32 c = c := by
    intro hSubset c hc
    exact toInt32_of_fits (hFits c (hSubset hc))
  have hNodup : correctAnswers.Nodup ↔ correctAnswers.dedup.length = correctAnswers.length := by
    constructor
    · intro h
      rw [h.dedup]
    · intro h
      rw [← List.dedup_eq_self]
      exact (List.dedup_sublist _).eq_of_length h
  have hSame : (∀ c ∈ correctAnswers, toInt32 c = c) →
      correctAnswers.map toInt32 = correctAnswers := by
    intro h
    exact (List.map_congr_left h).trans (List.map_id _)
  unfold MultipleAlike
  rw [List.length_map, hNodup]
  by_cases hAll : ∀ c ∈ correctAnswers, toInt32 c = c
  · rw [hSame hAll]
    by_cases hSubset : correctAnswers ⊆ selectedIndexes
    · simp only [hSubset, true_and, true_imp_iff, eq_true hAll]
      omega
    · simp [hSubset]
  · have hNot : ¬correctAnswers ⊆ selectedIndexes := fun h => hAll (hServer h)
    simp only [hNot, false_and, iff_false, hAll, false_imp_iff, false_or, and_true]
    tauto

end Choices

/-- The two grades of a response are equal when their scores are. -/
theorem localGrade_eq_iff {p q : Prop} [Decidable p] [Decidable q] :
    (⟨if p then 1 else 0, 1⟩ : LocalGrade) = ⟨if q then 1 else 0, 1⟩ ↔ (p ↔ q) := by
  by_cases hp : p <;> by_cases hq : q <;> simp [hp, hq]

section Lists

variable {fold : Char → Char}

@[simp] theorem length_changed {α : Type} (changes : List (Nat × α)) (answers : List α) :
    (changed changes answers).length = answers.length := by
  unfold changed
  induction changes generalizing answers with
  | nil => rfl
  | cons c changes ih =>
    rw [List.foldl_cons, ih]
    exact List.length_set

theorem countP_eq_iff {α : Type} (l : List α) (p q : α → Bool) : l.countP p = l.countP q ↔
    l.countP (fun a => p a && !q a) = l.countP (fun a => q a && !p a) := by
  have hSum : l.countP p + l.countP (fun a => q a && !p a) =
      l.countP q + l.countP (fun a => p a && !q a) := by
    induction l with
    | nil => rfl
    | cons a l ih =>
      simp only [List.countP_cons]
      cases p a <;> cases q a <;> simp <;> omega
  omega

/-- A blank whose case matters is never filled for the page alone: equal texts are equal when
trimmed. -/
theorem Blank.pageOnly_eq (b : Blank) (got : String) :
    b.pageOnly fold got = (b.acceptsLocally fold got && !b.accepts fold got) := by
  unfold Blank.pageOnly Blank.acceptsLocally Blank.accepts
  cases b.caseSensitive with
  | false => simp [List.all_eq_not_any_not]
  | true =>
    have hTrimmed : (b.accepted.any fun want => decide (got = want)) = true →
        (b.accepted.any fun want => decide (trimSpace got = trimSpace want)) = true := by
      intro h
      obtain ⟨want, hWant, hEq⟩ := List.any_eq_true.mp h
      refine List.any_eq_true.mpr ⟨want, hWant, ?_⟩
      rw [of_decide_eq_true hEq]
      exact decide_eq_true rfl
    cases hExact : b.accepted.any fun want => decide (got = want) with
    | false => simp [hExact]
    | true => simp [hTrimmed hExact]

theorem Blank.serverOnly_eq (b : Blank) (got : String) :
    b.serverOnly fold got = (b.accepts fold got && !b.acceptsLocally fold got) := by
  unfold Blank.serverOnly Blank.acceptsLocally Blank.accepts
  cases b.caseSensitive with
  | false => simp [List.all_eq_not_any_not]
  | true =>
    have hExact : b.accepted.contains got = b.accepted.any fun want => decide (got = want) := by
      rw [List.contains_eq_any_beq]
      rfl
    simp only [if_true, hExact]
    exact Bool.and_comm _ _

/-- The server's count, of as many answers as there are blanks. -/
theorem fillBlankGrade_score {template : String} {blanks : List Blank} {answers : List String}
    (hLength : answers.length = blanks.length) :
    fillBlankGrade fold (.fillBlank template blanks) (.fillBlank answers) =
      ⟨(blanks.zipIdx.countP fun (b, i) => b.accepts fold ((answers[i]?).getD "") : Nat),
        blanks.length, ""⟩ := by
  have hCount : (blanks.zipIdx.countP fun (b, i) => (answers[i]?).any (b.accepts fold)) =
      blanks.zipIdx.countP fun (b, i) => b.accepts fold ((answers[i]?).getD "") := by
    refine List.countP_congr fun ⟨b, i⟩ hMem => ?_
    have hi : i < answers.length := by
      have hLt := List.snd_lt_of_mem_zipIdx hMem
      omega
    simp [List.getElem?_eq_getElem hi]
  simp only [fillBlankGrade, ConfigJSON.blanks, ResponseJSON.answers, hCount]

theorem fillBlank_alike {template : String} {blanks : List Blank} {answers : List String}
    (hLength : answers.length = blanks.length) :
    fillBlankGradeLocal fold blanks answers =
        ⟨(fillBlankGrade fold (.fillBlank template blanks) (.fillBlank answers)).score,
          (fillBlankGrade fold (.fillBlank template blanks) (.fillBlank answers)).maxScore⟩ ↔
      BlanksAlike fold blanks answers := by
  rw [fillBlankGrade_score hLength]
  simp only [fillBlankGradeLocal, LocalGrade.mk.injEq, and_true, Nat.cast_inj]
  rw [countP_eq_iff]
  simp only [BlanksAlike, Blank.pageOnly_eq, Blank.serverOnly_eq]

theorem multipleChoice_grades_alike {options : List String}
    {correctAnswers selectedIndexes : List Int} (hNe : selectedIndexes ≠ [])
    (hNodup : selectedIndexes.Nodup) (hFits : ∀ s ∈ selectedIndexes, FitsInt 32 s) :
    multipleChoiceGradeLocal (McqConfig.extract ⟨"", options, -1, correctAnswers.map toInt32⟩)
        (some selectedIndexes) =
        ⟨(multipleChoiceGrade (.multipleChoice options correctAnswers)
            (.multipleChoice selectedIndexes)).score,
          (multipleChoiceGrade (.multipleChoice options correctAnswers)
            (.multipleChoice selectedIndexes)).maxScore⟩ ↔
      MultipleAlike correctAnswers selectedIndexes := by
  rw [multipleChoiceGradeLocal_score _ _ _ _ hNe, multipleChoiceGrade_score _ hNodup]
  exact localGrade_eq_iff.trans (multipleChoice_alike hFits)

/-- The questions of the browser are answered correctly where those of the row are. -/
theorem countP_zipIdx_extract {questions : List NestedMcqConfigJSON} (answers : List Int)
    (hFits : ∀ q ∈ questions, 0 ≤ q.correctAnswer ∧ FitsInt 32 q.correctAnswer) :
    (((mcqConfigsFromJSON questions false).map McqConfig.extract).zipIdx.countP
      fun (q, idx) => (answers[idx]?).getD (-1) = q.correctAnswer) =
      questions.zipIdx.countP fun (q, i) => answers[i]? = some (toInt32 q.correctAnswer) := by
  rw [mcqConfigsFromJSON, List.map_map, List.zipIdx_map, List.countP_map]
  refine List.countP_congr fun p hMem => ?_
  obtain ⟨q, i⟩ := p
  obtain ⟨hCorrect, hFit⟩ := hFits q (List.fst_mem_of_mem_zipIdx hMem)
  simp only [Function.comp_apply, Prod.map_apply, id_eq, McqConfig.extract, Bool.false_eq_true,
    if_false, toInt32_of_fits hFit, decide_eq_true_eq]
  cases answers[i]? with
  | none => simp; omega
  | some a => simp

theorem listening_alike {questions : List NestedMcqConfigJSON} {answers : List Int}
    (hNe : questions ≠ []) (hFits : ∀ q ∈ questions, 0 ≤ q.correctAnswer ∧
      FitsInt 32 q.correctAnswer) :
    listeningGradeLocal ((mcqConfigsFromJSON questions false).map McqConfig.extract) answers =
      ⟨(gradeMcqList questions answers).1, (gradeMcqList questions answers).2⟩ := by
  have hCount := countP_zipIdx_extract answers hFits
  have hLength : questions.length ≠ 0 := by simpa using hNe
  simp only [listeningGradeLocal, gradeMcqList, hCount]
  simp [mcqConfigsFromJSON, hLength]

end Lists

theorem Gradable.kind_eq {kind : InteractionKind} {cfg : ConfigJSON} (h : Gradable kind cfg) :
    cfg.kind = kind := by
  cases h <;> rfl

section Graded

variable {fold : Char → Char} {it : LessonInteractionMessage} {cfg : ConfigJSON}
  {resp : LocalResponse}

theorem previewGradeLocal_eq {config : ConfigMessage} (hConfig : it.config = some config) :
    previewGradeLocal fold it resp = gradeLocal fold it.kind (extractConfig config) resp := by
  simp [previewGradeLocal, hConfig]

theorem grades_alike_iff (hGradable : Gradable it.kind cfg)
    (hConfig : it.config = some (cfg.apply false))
    (hProduced : Produced it.kind (extractConfig (cfg.apply false)) resp) :
    ∃ shown graded, previewGradeLocal fold it resp = some shown ∧
      submittedGrade fold cfg it resp = some graded ∧ (shown = graded ↔ Alike fold cfg resp) := by
  rw [previewGradeLocal_eq hConfig]
  unfold submittedGrade buildAttemptResponseInput
  rw [hConfig]
  generalize it.kind = kind at hGradable hProduced ⊢
  cases hGradable with
  | singleChoice hCorrect =>
    cases hProduced with
    | singleChoice hShows =>
      refine ⟨_, _, rfl, rfl, ?_⟩
      exact localGrade_eq_iff.trans (singleChoice_alike hCorrect hShows.1 hShows.2.2)
  | multipleChoice =>
    cases hProduced with
    | multipleChoice hShows hNe =>
      obtain ⟨hNodup, hShown⟩ := toggled_spec hShows
      refine ⟨_, _, rfl, rfl, ?_⟩
      exact multipleChoice_grades_alike hNe hNodup fun s hs => (hShown s hs).2.2
  | @fillBlank template blanks =>
    have hApply : (ConfigJSON.fillBlank template blanks).apply false =
        .fillBlank template blanks := by
      simp [ConfigJSON.apply]
    rw [hApply] at hProduced ⊢
    cases hProduced with
    | fillBlank changes =>
      refine ⟨_, _, rfl, rfl, ?_⟩
      apply fillBlank_alike
      simp
  | listening hNe hRange =>
    cases hProduced with
    | listening hChanges =>
      refine ⟨_, _, rfl, rfl, ?_⟩
      rw [listening_alike hNe hRange]
      exact iff_of_true rfl trivial

end Graded

/-- What the page shows for an accepted configuration and a response of its view, and what the
server gives to the response as the page submits it, are the same exactly when they are alike. -/
theorem previewGradeLocal_eq_submittedGrade_iff (fold : Char → Char) {i : LessonInteractionRow}
    {cfg : ConfigJSON} {resp : LocalResponse} (hKind : dbStringToKind i.kind ∈ staticKinds)
    (hAccepted : Accepted (dbStringToKind i.kind) cfg) (hStored : i.config = marshalConfig cfg)
    (hProduced : Produced (dbStringToKind i.kind) (extractConfig (cfg.apply false)) resp) :
    ∃ shown graded, previewGradeLocal fold (interactionToProto i false) resp = some shown ∧
      submittedGrade fold cfg (interactionToProto i false) resp = some graded ∧
      (shown = graded ↔ Alike fold cfg resp) := by
  obtain ⟨hGradable, hFits⟩ := hAccepted.gradable hKind
  refine grades_alike_iff hGradable ?_ hProduced
  show applyConfig (dbStringToKind i.kind) i.config false = _
  rw [applyConfig, hStored, ← hGradable.kind_eq, unmarshalConfig_marshalConfig hFits]
  rfl

/-- A row that stores a configuration. -/
def storedRow (cfg : ConfigJSON) : LessonInteractionRow where
  id := 1
  lessonId := 10
  chunkId := none
  kind := kindToDBString cfg.kind
  startSeconds := 0
  orderIndex := 0
  prompt := ""
  explanation := ""
  config := marshalConfig cfg
  maxScore := 1
  generatedBy := "manual"
  createdAt := none

/-- A sentence with one blank, for which a text is accepted. -/
def oneBlank (accepted : String) (caseSensitive : Bool) : ConfigJSON :=
  .fillBlank "\x7b\x7b0\x7d\x7d" [⟨[accepted], caseSensitive, ""⟩]

theorem accepted_oneBlank (caseSensitive : Bool) :
    Accepted .fillBlank (oneBlank " Go " caseSensitive) := by
  have hFits : (ConfigMessage.fillBlank "\x7b\x7b0\x7d\x7d"
      [⟨[" Go "], caseSensitive, ""⟩]).Fits := trivial
  refine .created hFits ?_
  cases caseSensitive <;> decide +kernel

/-- A question whose one correct option is listed twice. -/
def listedTwice : ConfigJSON := .multipleChoice ["a", "b"] [0, 0]

theorem accepted_listedTwice : Accepted .multipleChoice listedTwice :=
  .created (show (ConfigMessage.mcq ⟨"", ["a", "b"], 0, [0, 0]⟩).Fits from
    ⟨by decide, by decide⟩) rfl

theorem produced_oneBlank (caseSensitive : Bool) (val : String) : Produced .fillBlank
    (extractConfig ((oneBlank " Go " caseSensitive).apply false)) (.fillBlank [val]) :=
  .fillBlank [(0, val)]

/-- An answer without the spaces around the accepted text, where case matters: the page counts it as
wrong, the server as right.  So do they with the correct option that is listed twice. -/
theorem previewGradeLocal_ne_submittedGrade :
    (Accepted .fillBlank (oneBlank " Go " true) ∧
      Produced .fillBlank (extractConfig ((oneBlank " Go " true).apply false)) (.fillBlank ["Go"]) ∧
      previewGradeLocal Char.toLower (interactionToProto (storedRow (oneBlank " Go " true)) false)
        (.fillBlank ["Go"]) = some ⟨0, 1⟩ ∧
      submittedGrade Char.toLower (oneBlank " Go " true)
        (interactionToProto (storedRow (oneBlank " Go " true)) false) (.fillBlank ["Go"]) =
          some ⟨1, 1⟩) ∧
    Accepted .multipleChoice listedTwice ∧
      Produced .multipleChoice (extractConfig (listedTwice.apply false)) (.mcq (-1) (some [0])) ∧
      previewGradeLocal Char.toLower (interactionToProto (storedRow listedTwice) false)
        (.mcq (-1) (some [0])) = some ⟨0, 1⟩ ∧
      submittedGrade Char.toLower listedTwice (interactionToProto (storedRow listedTwice) false)
        (.mcq (-1) (some [0])) = some ⟨1, 1⟩ := by
  refine ⟨⟨accepted_oneBlank true, produced_oneBlank true "Go", ?_, ?_⟩, accepted_listedTwice,
    ?_, ?_, ?_⟩
  · decide +kernel
  · decide +kernel
  · have hShows : ∀ idx ∈ [(0 : Int)],
        (McqConfig.extract ⟨"", ["a", "b"], -1, [0, 0]⟩).Shows idx := by
      intro idx hIdx
      rw [List.mem_singleton.mp hIdx]
      exact ⟨le_refl 0, by decide, by decide⟩
    exact .multipleChoice hShows (by decide)
  · decide +kernel
  · decide +kernel

theorem previewGradeLocal_eq_submittedGrade_iff_go : ∃ shown graded,
    previewGradeLocal Char.toLower (interactionToProto (storedRow (oneBlank " Go " false)) false)
        (.fillBlank ["go"]) = some shown ∧
      submittedGrade Char.toLower (oneBlank " Go " false)
        (interactionToProto (storedRow (oneBlank " Go " false)) false) (.fillBlank ["go"]) =
          some graded ∧
      (shown = graded ↔ Alike Char.toLower (oneBlank " Go " false) (.fillBlank ["go"])) :=
  previewGradeLocal_eq_submittedGrade_iff Char.toLower
    (i := storedRow (oneBlank " Go " false)) (by decide) (accepted_oneBlank false) rfl
    (produced_oneBlank false "go")

end Richter.Interactions
