import Mathlib.Algebra.Order.Ring.Rat
import Std.Data.String.ToInt
import Richter.Interactions.Config
import Richter.Interactions.Db
import Richter.Lib.Words

/-! The grading of a response: by the handler of the interaction's kind, in a submission and in a
call for one response (`grading.go`).  The graders that call an AI model answer what the environment
says. -/

namespace Richter.Interactions

open Lib

section Views

/-! What `json.Unmarshal` makes of a text: a missing field is the zero value. -/

def ConfigJSON.correctAnswer : ConfigJSON → Int
  | .singleChoice _ correctAnswer => correctAnswer
  | _ => 0

def ConfigJSON.correctAnswers : ConfigJSON → List Int
  | .multipleChoice _ correctAnswers => correctAnswers
  | _ => []

def ConfigJSON.comprehensionQuestions : ConfigJSON → List NestedMcqConfigJSON
  | .listening _ _ _ comprehensionQuestions => comprehensionQuestions
  | _ => []

def ResponseJSON.selected : ResponseJSON → Int
  | .singleChoice selected => selected
  | _ => 0

def ResponseJSON.selectedIndexes : ResponseJSON → List Int
  | .multipleChoice selectedIndexes => selectedIndexes
  | _ => []

def ResponseJSON.comprehensionAnswers : ResponseJSON → List Int
  | .listening comprehensionAnswers => comprehensionAnswers
  | _ => []

def ResponseJSON.essay : ResponseJSON → String
  | .writing text => text
  | _ => ""

end Views

/-- `singleChoiceHandler.Grade`. -/
def singleChoiceGrade (cfg : ConfigJSON) (resp : ResponseJSON) : Grade :=
  ⟨if resp.selected = cfg.correctAnswer then 1 else 0, 1, ""⟩

/-- `multipleChoiceHandler.Grade`. -/
def multipleChoiceGrade (cfg : ConfigJSON) (resp : ResponseJSON) : Grade :=
  let correctSet := cfg.correctAnswers.dedup
  let selectedSet := resp.selectedIndexes.dedup
  if correctSet.length ≠ selectedSet.length then ⟨0, 1, ""⟩
  else if correctSet.all fun a => a ∈ selectedSet then ⟨1, 1, ""⟩
  else ⟨0, 1, ""⟩

/-- `gradeMcqList` of what `gradeAnswers` makes of the questions: how many answers are correct, of how
many. -/
def gradeMcqList (configs : List NestedMcqConfigJSON) (answers : List Int) : Nat × Nat :=
  (configs.zipIdx.countP fun (cfg, i) => answers[i]? = some (toInt32 cfg.correctAnswer),
    configs.length)

/-- `listeningHandler.Grade`. -/
def listeningGrade (cfg : ConfigJSON) (resp : ResponseJSON) : Grade :=
  let (correct, total) := gradeMcqList cfg.comprehensionQuestions resp.comprehensionAnswers
  ⟨correct, total, ""⟩

/-- `listeningHandler.GradeWithContext`. -/
def listeningGradeWithContext (cfg : ConfigJSON) (resp : ResponseJSON) : Grade :=
  let (correct, total) := gradeMcqList cfg.comprehensionQuestions resp.comprehensionAnswers
  ⟨correct, total, "Trả lời đúng " ++ toString correct ++ "/" ++ toString total ++
    " câu hỏi nghe hiểu."⟩

/-- What a grader comes to. -/
inductive Outcome
  | graded (grade : Grade)
  | failed
  | panicked
  deriving DecidableEq

/-- The service's `gradingDeps`: not set, or what it answers. -/
inductive GradingDeps
  | unset
  | unresolved
  | resolved
  deriving DecidableEq, Repr

/-- The handlers with a `GradeWithContext`. -/
def InteractionKind.isContextualGrader : InteractionKind → Bool
  | .fillBlank | .listening | .reading | .writing => true
  | _ => false

/-- The handler's `Grade`, or its `GradeWithContext`. -/
def handlerGrade (withContext : Bool) (outcome : Outcome) (kind : InteractionKind)
    (cfg : ConfigJSON) (resp : ResponseJSON) : Outcome :=
  match kind with
  | .singleChoice => .graded (singleChoiceGrade cfg resp)
  | .multipleChoice => .graded (multipleChoiceGrade cfg resp)
  | .listening =>
      .graded (if withContext then listeningGradeWithContext cfg resp else listeningGrade cfg resp)
  | _ => outcome

/-- What becomes of a grader that fails in `SubmitAttempt`. -/
def Outcome.settle : Outcome → Grade
  | .graded grade => grade
  | .failed => ⟨0, 1, "Hệ thống chưa chấm được câu này. Giáo viên sẽ xem lại."⟩
  | .panicked => ⟨0, 1, "Hệ thống gặp lỗi khi chấm câu này. Giáo viên sẽ xem lại."⟩

/-- The goroutine of `SubmitAttempt` that grades a response. -/
def submitGrade (deps : GradingDeps) (outcome : Outcome) (kind : InteractionKind)
    (cfg : ConfigJSON) (resp : ResponseJSON) : Grade :=
  if kind.isContextualGrader then
    match deps with
    | .unset => (handlerGrade false outcome kind cfg resp).settle
    | .unresolved => ⟨0, 1, "Hệ thống chưa thể chấm câu này. Giáo viên sẽ xem lại."⟩
    | .resolved => (handlerGrade true outcome kind cfg resp).settle
  else (handlerGrade false outcome kind cfg resp).settle

/-- `gradeSingleResponse`, which ends in an error (`none`) when the dependencies or the grader
do. -/
def gradeSingleResponse (deps : GradingDeps) (outcome : Outcome) (kind : InteractionKind)
    (cfg : ConfigJSON) (resp : ResponseJSON) : Option Grade :=
  let result (withContext : Bool) :=
    match handlerGrade withContext outcome kind cfg resp with
    | .graded grade => some grade
    | .failed | .panicked => none
  if kind.isContextualGrader then
    match deps with
    | .unset => result false
    | .unresolved => none
    | .resolved => result true
  else result false

/-- The score and the maximum that the handler of a kind gives without an AI model. -/
def handlerScore (kind : InteractionKind) (cfg : ConfigJSON) (resp : ResponseJSON) :
    Option (ℚ × ℚ) :=
  let score (grade : Grade) := (grade.score, grade.maxScore)
  match kind with
  | .singleChoice => some (score (singleChoiceGrade cfg resp))
  | .multipleChoice => some (score (multipleChoiceGrade cfg resp))
  | .listening => some (score (listeningGrade cfg resp))
  | _ => none

/-- The audio plays no part in the score. -/
@[simp] theorem handlerScore_setAudioObjectKey (kind : InteractionKind) (key : String)
    (cfg : ConfigJSON) (resp : ResponseJSON) :
    handlerScore kind (cfg.setAudioObjectKey key) resp = handlerScore kind cfg resp := by
  cases cfg <;> rfl

section Score

variable {deps : GradingDeps} {outcome : Outcome} {kind : InteractionKind} {cfg : ConfigJSON}
  {resp : ResponseJSON} {score : ℚ × ℚ}

/-- A submission's grade is the handler's, unless it is that of a listening whose dependencies are
not resolved. -/
theorem submitGrade_score (h : handlerScore kind cfg resp = some score)
    (hDeps : deps = .unresolved → kind = .listening → score = (0, 1)) :
    ((submitGrade deps outcome kind cfg resp).score,
      (submitGrade deps outcome kind cfg resp).maxScore) = score := by
  cases kind with
  | singleChoice => cases h; rfl
  | multipleChoice => cases h; rfl
  | listening =>
    cases deps with
    | unset => cases h; rfl
    | unresolved => exact (hDeps rfl rfl).symm
    | resolved => cases h; rfl
  | _ => cases h

/-- A grade for one response is the handler's. -/
theorem gradeSingleResponse_score {grade : Grade} (h : handlerScore kind cfg resp = some score)
    (hGrade : gradeSingleResponse deps outcome kind cfg resp = some grade) :
    (grade.score, grade.maxScore) = score := by
  cases kind with
  | singleChoice => cases h; cases hGrade; rfl
  | multipleChoice => cases h; cases hGrade; rfl
  | listening =>
    cases deps with
    | unset => cases h; cases hGrade; rfl
    | unresolved => cases hGrade
    | resolved => cases h; cases hGrade; rfl
  | _ => cases h

/-- Only a listening whose dependencies are not resolved goes without a grade. -/
theorem deps_of_gradeSingleResponse_none (h : handlerScore kind cfg resp = some score)
    (hNone : gradeSingleResponse deps outcome kind cfg resp = none) :
    deps = .unresolved ∧ kind = .listening := by
  cases kind with
  | singleChoice => cases hNone
  | multipleChoice => cases hNone
  | listening =>
    cases deps with
    | unset => cases hNone
    | unresolved => exact ⟨rfl, rfl⟩
    | resolved => cases hNone
  | _ => cases h

end Score

/-! The text of a response tells it from the others of its kind. -/

section Text

theorem comma_not_mem_toString (i : Int) : ',' ∉ (toString i).toList := by
  have hNat : ∀ n : Nat, ',' ∉ n.repr.toList := by
    intro n hMem
    rw [Nat.toList_repr] at hMem
    have hDigit := Nat.isDigit_of_mem_toDigits (by decide) (by decide) hMem
    cases hDigit
  rw [Int.toString_eq_repr, Int.repr_eq_if]
  split
  · exact hNat _
  · rw [String.toList_append, List.mem_append]
    rintro (hSign | hDigits)
    · simp at hSign
    · exact hNat _ hDigits

theorem toString_toList_ne_nil (i : Int) : (toString i).toList ≠ [] := by
  rw [Int.toString_eq_repr, Int.repr_eq_if]
  split
  · rw [Nat.toList_repr]
    exact Nat.toDigits_ne_nil
  · simp

theorem goLayout_array_injective {is js : List Int}
    (h : goLayout.array (is.map toString) = goLayout.array (js.map toString)) : is = js := by
  have hWords : ∀ l : List Int,
      words (· == ',') (",".intercalate (l.map toString)).toList =
        l.map fun i => (toString i).toList := by
    intro l
    have hComma : ",".toList = [','] := rfl
    rw [String.toList_intercalate, hComma, List.map_map, words_intercalate]
    · rfl
    · intro w hw
      obtain ⟨i, _, rfl⟩ := List.mem_map.mp hw
      exact ⟨comma_not_mem_toString i, toString_toList_ne_nil i⟩
  have hInj : Function.Injective fun i : Int => (toString i).toList := fun i j hij =>
    Int.repr_injective (String.toList_inj.mp hij)
  unfold Layout.array at h
  rw [String.append_left_inj, String.append_right_inj] at h
  refine List.map_injective_iff.mpr hInj ?_
  rw [← hWords, ← hWords]
  exact congrArg (fun t => words (· == ',') t.toList) h

theorem goLayout_object_injective {k v w : String}
    (h : goLayout.object [(k, v)] = goLayout.object [(k, w)]) : v = w := by
  simpa only [Layout.object, List.map_cons, List.map_nil, String.intercalate_singleton,
    String.append_left_inj, String.append_right_inj] using h

theorem goLayout_object_ne_empty (k v : String) :
    goLayout.object [(k, v)] ≠ goLayout.object [] := by
  intro h
  have hLength := congrArg String.length h
  have hQuote : "\"".length = 1 := rfl
  have hEmpty : "".length = 0 := rfl
  simp only [Layout.object, Layout.string, List.map_cons, List.map_nil,
    String.intercalate_singleton, String.intercalate_nil, String.length_append] at hLength
  omega

/-- The kind whose handler stores a response. -/
def ResponseJSON.kind : ResponseJSON → InteractionKind
  | .singleChoice _ => .singleChoice
  | .multipleChoice _ => .multipleChoice
  | .fillBlank _ => .fillBlank
  | .listening _ => .listening
  | .reading _ => .reading
  | .writing _ => .writing

theorem kind_of_responseProtoToJSON {kind : InteractionKind}
    {toJSON : Answer → Except Error ResponseJSON} {answer : Answer} {resp : ResponseJSON}
    (h : responseProtoToJSON kind = some toJSON) (hResp : toJSON answer = .ok resp) :
    resp.kind = kind := by
  cases kind with
  | unspecified => cases h
  | _ =>
    cases h
    cases answer <;> cases hResp
    rfl

/-- For the kinds that are graded without an AI model. -/
theorem goLayout_text_injective {kind : InteractionKind} {cfg : ConfigJSON} {r r' : ResponseJSON}
    (hKind : r.kind = kind) (hKind' : r'.kind = kind)
    (hScored : handlerScore kind cfg r ≠ none) (h : goLayout.text r = goLayout.text r') :
    r = r' := by
  subst hKind
  cases r with
  | singleChoice i =>
    cases r' <;> cases hKind'
    exact congrArg _ (Int.repr_injective (goLayout_object_injective h))
  | multipleChoice is =>
    cases r' <;> cases hKind'
    exact congrArg _ (goLayout_array_injective (goLayout_object_injective h))
  | listening is =>
    cases r' with
    | listening js =>
      cases is with
      | nil =>
        cases js with
        | nil => rfl
        | cons j js => exact (goLayout_object_ne_empty _ _ h.symm).elim
      | cons i is =>
        cases js with
        | nil => exact (goLayout_object_ne_empty _ _ h).elim
        | cons j js => exact congrArg _ (goLayout_array_injective (goLayout_object_injective h))
    | _ => cases hKind'
  | _ => exact absurd rfl hScored

end Text

end Richter.Interactions
