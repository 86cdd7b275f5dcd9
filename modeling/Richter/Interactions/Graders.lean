import Richter.Interactions.FillBlank

/-! The graders of readings and essays (`reading.go`, `writing.go`), that of fill-in-the-blank
questions with an AI model that may panic, and the functions that the AI service hands to them
(`internal/svc/ai/grading_deps.go`). -/

namespace Richter.Interactions

open Lessons (trimSpace fields)

section Views

/-! What `json.Unmarshal` makes of a text: a missing field is the zero value. -/

def ConfigJSON.passageMarkdown : ConfigJSON → String
  | .reading _ passageMarkdown .. => passageMarkdown
  | _ => ""

def ConfigJSON.question : ConfigJSON → String
  | .reading _ _ question _ => question
  | _ => ""

def ConfigJSON.expectedAnswer : ConfigJSON → String
  | .reading _ _ _ expectedAnswer => expectedAnswer
  | .writing _ _ expectedAnswer _ => expectedAnswer
  | _ => ""

def ConfigJSON.prompt : ConfigJSON → String
  | .writing prompt .. => prompt
  | _ => ""

def ConfigJSON.rubric : ConfigJSON → String
  | .writing _ rubric .. => rubric
  | _ => ""

def ConfigJSON.minWords : ConfigJSON → Int
  | .writing _ _ _ minWords => minWords
  | _ => 0

end Views

/-- What `GradeAudio` and `GradeText` return; `failed` tells an error. -/
structure Graded where
  score : ℚ
  maxScore : ℚ
  feedback : String
  failed : Bool

/-- The functions of `GradingDeps`, each of which may be nil.  A call that panics comes to `none`.
`gradeText` may answer differently from call to call, so it also gets the number of the blank. -/
structure GradingFunctions where
  gradeAudio : Option (List UInt8 → String → String → String → Option Graded)
  gradeText : Option (Nat → String → String → String → Option Graded)
  getAudioBytes : Option (String → Option (Except String (List UInt8)))

section Grade

variable (fold : Char → Char)

/-- The question about a blank. -/
def blankQuestion (template : String) (blanks : Nat) (answers : List String) (i : Nat) : String :=
  "Điền từ vào chỗ trống trong câu: '" ++ contextTemplate template blanks answers i ++
    "'. Chỗ trống hiện tại đang được biểu thị bằng '______'."

/-- One round of the loop of `GradeWithContext`, which a panic of the AI model ends. -/
def gradeBlankWithDeps (gradeText : Option (Nat → String → String → String → Option Graded))
    (template : String) (blanks : Nat) (answers : List String) (b : Blank) (i : Nat) :
    Option (Bool × String) :=
  match answers[i]? with
  | none => some (false, unanswered i)
  | some answer =>
    let got := trimSpace answer
    if got = "" then some (false, unanswered i)
    else if b.accepts fold answer then some (true, blankName i ++ "Chính xác!")
    else
      match gradeText with
      | some gradeText => do
        let ai ← gradeText i (blankQuestion template blanks answers i) got
          (", ".intercalate b.accepted)
        gradeBlankByText (fun _ _ _ => ⟨ai.score, ai.feedback, ai.failed⟩) template blanks answers
          b i got
      | none => some (false, blankName i ++ "Không chính xác. Bạn điền: '" ++ got ++ "'.")

/-- An AI model that never panics, and answers by what it is asked alone. -/
def GradeText.total (gradeText : GradeText) :
    Nat → String → String → String → Option Graded :=
  fun _ question studentAnswer expectedAnswer =>
    let ai := gradeText question studentAnswer expectedAnswer
    some ⟨ai.score, 1, ai.feedback, ai.failed⟩

theorem gradeBlankWithDeps_total (gradeText : Option GradeText) (template : String) (blanks : Nat)
    (answers : List String) (b : Blank) (i : Nat) :
    gradeBlankWithDeps fold (gradeText.map GradeText.total) template blanks answers b i =
      gradeBlank fold gradeText template blanks answers b i := by
  cases gradeText <;> rfl

/-- `fillBlankHandler.GradeWithContext`. -/
def fillBlankGradeWithDeps (deps : GradingFunctions) (cfg : ConfigJSON) (resp : ResponseJSON) :
    Outcome :=
  let rounds := cfg.blanks.zipIdx.mapM fun (b, i) =>
    gradeBlankWithDeps fold deps.gradeText cfg.template cfg.blanks.length resp.answers b i
  match rounds with
  | none => .panicked
  | some rounds =>
      .graded ⟨(rounds.countP Prod.fst : Nat), cfg.blanks.length,
        "\n".intercalate (rounds.map Prod.snd)⟩

/-- With such a model the grader is the one without panics. -/
theorem fillBlankGradeWithDeps_total {deps : GradingFunctions} {gradeText : Option GradeText}
    (hText : deps.gradeText = gradeText.map GradeText.total) (cfg : ConfigJSON)
    (resp : ResponseJSON) :
    fillBlankGradeWithDeps fold deps cfg resp =
      fillBlankGradeWithContext fold gradeText cfg resp := by
  have hRounds : (cfg.blanks.zipIdx.mapM fun (b, i) => gradeBlankWithDeps fold deps.gradeText
      cfg.template cfg.blanks.length resp.answers b i) = cfg.blanks.zipIdx.mapM fun (b, i) =>
        gradeBlank fold gradeText cfg.template cfg.blanks.length resp.answers b i := by
    simp only [hText, gradeBlankWithDeps_total]
  unfold fillBlankGradeWithDeps
  rw [hRounds]
  rfl

/-- `readingHandler.Grade`. -/
def readingGrade (resp : ResponseJSON) : Grade :=
  if trimSpace resp.audioObjectKey = "" then ⟨0, 1, "Chưa có bản ghi âm."⟩
  else ⟨0, 1, "Chưa chấm điểm — hệ thống AI chưa được cấu hình."⟩

/-- `readingHandler.GradeWithContext`. -/
def readingGradeWithContext (deps : GradingFunctions) (cfg : ConfigJSON) (resp : ResponseJSON) :
    Outcome :=
  if trimSpace resp.audioObjectKey = "" then .graded ⟨0, 1, "Chưa có bản ghi âm."⟩
  else
    match deps.getAudioBytes.bind fun getAudioBytes => getAudioBytes resp.audioObjectKey with
    | none => .panicked
    | some (.error _) =>
      .graded ⟨1 / 2, 1, "Hệ thống chưa tải được bản ghi âm để chấm. Giáo viên sẽ xem lại."⟩
    | some (.ok audioBytes) =>
      match deps.gradeAudio.bind fun gradeAudio =>
          gradeAudio audioBytes cfg.passageMarkdown cfg.question cfg.expectedAnswer with
      | none => .panicked
      | some g => if g.failed then .failed else .graded ⟨g.score, g.maxScore, g.feedback⟩

/-- `writingHandler.Grade`. -/
def writingGrade (resp : ResponseJSON) : Grade :=
  if trimSpace resp.essay = "" then ⟨0, 1, "Chưa có bài viết."⟩
  else ⟨0, 1, "Chưa chấm điểm — hệ thống AI chưa được cấu hình."⟩

/-- `writingHandler.GradeWithContext`. -/
def writingGradeWithContext (deps : GradingFunctions) (cfg : ConfigJSON) (resp : ResponseJSON) :
    Outcome :=
  let essay := trimSpace resp.essay
  let words := (fields essay).length
  if essay = "" then .graded ⟨0, 1, "Chưa có bài viết."⟩
  else if 0 < cfg.minWords && words < cfg.minWords then
    .graded ⟨0, 1, "Bài viết quá ngắn: cần ít nhất " ++ toString cfg.minWords ++ " từ, hiện có " ++
      toString words ++ "."⟩
  else
    match deps.gradeText with
    | none =>
      .graded ⟨1 / 2, 1, "Hệ thống AI chưa sẵn sàng để chấm. Giáo viên sẽ xem lại."⟩
    | some gradeText =>
      let question :=
        if trimSpace cfg.rubric = "" then cfg.prompt
        else "Đề bài: " ++ cfg.prompt ++ "\n\nTiêu chí chấm điểm: " ++ cfg.rubric
      match gradeText 0 question essay cfg.expectedAnswer with
      | none => .panicked
      | some g =>
        if g.failed then
          .graded ⟨1 / 2, 1, "Hệ thống chưa chấm được bài viết. Giáo viên sẽ xem lại."⟩
        else .graded ⟨g.score, if g.maxScore ≤ 0 then 1 else g.maxScore, g.feedback⟩

/-- What the handlers that may ask an AI model come to, in their `Grade` or `GradeWithContext`. -/
def askedOutcome (withContext : Bool) (deps : GradingFunctions) (kind : InteractionKind)
    (cfg : ConfigJSON) (resp : ResponseJSON) : Outcome :=
  match kind, withContext with
  | .fillBlank, false => .graded (fillBlankGrade fold cfg resp)
  | .fillBlank, true => fillBlankGradeWithDeps fold deps cfg resp
  | .reading, false => .graded (readingGrade resp)
  | .reading, true => readingGradeWithContext deps cfg resp
  | .writing, false => .graded (writingGrade resp)
  | .writing, true => writingGradeWithContext deps cfg resp
  | _, _ => .failed

end Grade

/-- `AudioGradingResult`. -/
structure AudioGradingResult where
  transcript : String
  pronunciationScore : ℚ
  contentScore : ℚ
  feedback : String

def clamp01 (v : ℚ) : ℚ := if v < 0 then 0 else if 1 < v then 1 else v

/-- What the engines answer to the grading service, by the lesson's language: the scores are still
as the model has sent them.  A call that panics comes to `none`. -/
structure GradingEngine where
  audio : String → List UInt8 → String → String → String →
    Option (Except String AudioGradingResult)
  text : Nat → String → String → String → String → Option (Except String (ℚ × String))
  downloadAudio : String → Option (Except String (List UInt8))

/-- The closures of `buildGradingDeps` over the `GradeAudio` and `GradeText` of the grading
service, which clamp the scores. -/
def buildGradingDeps (engine : GradingEngine) (lang : String) : GradingFunctions where
  gradeAudio := some fun audioBytes passageMarkdown question expectedAnswer =>
    (engine.audio lang audioBytes passageMarkdown question expectedAnswer).map fun
      | .error _ => ⟨1 / 2, 1, "Hệ thống AI tạm thời chưa chấm được phần ghi âm này. " ++
          "Giáo viên sẽ xem lại.", false⟩
      | .ok result =>
        let pronunciationScore := clamp01 result.pronunciationScore
        let contentScore := clamp01 result.contentScore
        ⟨if question = "" then pronunciationScore else (pronunciationScore + contentScore) / 2, 1,
          if result.transcript = "" then result.feedback
          else "Bạn đã nói: \"" ++ result.transcript ++ "\"\n\n" ++ result.feedback, false⟩
  gradeText := some fun i question studentAnswer expectedAnswer =>
    (engine.text i lang question studentAnswer expectedAnswer).map fun
      | .error _ => ⟨1 / 2, 1, "Hệ thống AI tạm thời chưa chấm được câu này. " ++
          "Giáo viên sẽ xem lại.", false⟩
      | .ok (score, feedback) => ⟨clamp01 score, 1, feedback, false⟩
  getAudioBytes := some engine.downloadAudio

end Richter.Interactions
