import Mathlib.Tactic.NormNum
import Richter.Interactions.Grading
import Richter.Lib.MapM

/-! The graders of fill-in-the-blank questions (`fill_blank.go`): the static one, and the one that
asks an AI model about an answer that it does not know. -/

namespace Richter.Interactions

open Lib
open Lessons (trimSpace)

section Views

/-! What `json.Unmarshal` makes of a text: a missing field is the zero value. -/

def ConfigJSON.template : ConfigJSON → String
  | .fillBlank template _ => template
  | _ => ""

def ConfigJSON.blanks : ConfigJSON → List Blank
  | .fillBlank _ blanks => blanks
  | _ => []

def ResponseJSON.answers : ResponseJSON → List String
  | .fillBlank answers => answers
  | _ => []

end Views

/-- What follows `old` at the start of a text is searched on; `fuel` bounds it. -/
def replaceAllFrom (old new : List Char) : Nat → List Char → List Char
  | 0, cs => cs
  | _, [] => []
  | fuel + 1, c :: cs =>
      if old.isPrefixOf (c :: cs) then
        new ++ replaceAllFrom old new fuel ((c :: cs).drop old.length)
      else c :: replaceAllFrom old new fuel cs

/-- `strings.ReplaceAll`, where `old` is not empty. -/
def replaceAll (s old new : String) : String :=
  String.ofList (replaceAllFrom old.toList new.toList s.length s.toList)

/-- What an AI model answers: `failed` tells an error. -/
structure TextGrade where
  score : ℚ
  feedback : String
  failed : Bool

/-- `GradeText`, of a question, a student's answer and the expected one. -/
abbrev GradeText := String → String → String → TextGrade

section Grade

/-! `fold` takes a letter to the one that stands for it and its other case. -/

variable (fold : Char → Char)

/-- `strings.EqualFold`. -/
def equalFold (s t : String) : Bool := s.toList.map fold = t.toList.map fold

/-- An answer is one of the accepted ones; neither is compared with the blanks around it. -/
def Blank.accepts (b : Blank) (got : String) : Bool :=
  b.accepted.any fun want =>
    if b.caseSensitive then trimSpace got = trimSpace want
    else equalFold fold (trimSpace got) (trimSpace want)

/-- `fillBlankHandler.Grade`. -/
def fillBlankGrade (cfg : ConfigJSON) (resp : ResponseJSON) : Grade :=
  ⟨(cfg.blanks.zipIdx.countP fun (b, i) => (resp.answers[i]?).any (b.accepts fold) : Nat),
    cfg.blanks.length, ""⟩

/-- The sentence of a blank: `______` in its place, and the student's answers in the others. -/
def contextTemplate (template : String) (blanks : Nat) (answers : List String) (i : Nat) : String :=
  (List.range blanks).foldl (fun text j =>
    let placeholder := "\x7b\x7b" ++ toString j ++ "\x7d\x7d"
    if j = i then replaceAll text placeholder "______"
    else
      match answers[j]? with
      | none => text
      | some answer =>
        if trimSpace answer = "" then text else replaceAll text placeholder ("[" ++ answer ++ "]"))
    template

def blankName (i : Nat) : String := "Chỗ trống " ++ toString (i + 1) ++ ": "

def unanswered (i : Nat) : String := blankName i ++ "Chưa trả lời."

/-- An answer that an AI model is asked about.  A blank without accepted answers has none to
suggest (`none`). -/
def gradeBlankByText (gradeText : GradeText) (template : String) (blanks : Nat)
    (answers : List String) (b : Blank) (i : Nat) (got : String) : Option (Bool × String) :=
  let question := "Điền từ vào chỗ trống trong câu: '" ++
    contextTemplate template blanks answers i ++
    "'. Chỗ trống hiện tại đang được biểu thị bằng '______'."
  let ai := gradeText question got (", ".intercalate b.accepted)
  if !ai.failed && 4 / 5 ≤ ai.score then
    some (true, blankName i ++ "Chính xác (chấm bằng AI: " ++ got ++ ")" ++
      if ai.feedback = "" then "" else " - " ++ ai.feedback)
  else
    match b.accepted with
    | [] => none
    | want :: _ =>
      some (false, blankName i ++ "Không chính xác. Bạn điền: '" ++ got ++
        "'. Đáp án đúng gợi ý: '" ++ want ++ "'." ++
        if ai.feedback ≠ "" && 0 < ai.score then " Nhận xét: " ++ ai.feedback else "")

/-- One round of the loop of `GradeWithContext`: whether the blank counts, and its line of the
feedback. -/
def gradeBlank (gradeText : Option GradeText) (template : String) (blanks : Nat)
    (answers : List String) (b : Blank) (i : Nat) : Option (Bool × String) :=
  match answers[i]? with
  | none => some (false, unanswered i)
  | some answer =>
    let got := trimSpace answer
    if got = "" then some (false, unanswered i)
    else if b.accepts fold answer then some (true, blankName i ++ "Chính xác!")
    else
      match gradeText with
      | some gradeText => gradeBlankByText gradeText template blanks answers b i got
      | none => some (false, blankName i ++ "Không chính xác. Bạn điền: '" ++ got ++ "'.")

/-- `fillBlankHandler.GradeWithContext`. -/
def fillBlankGradeWithContext (gradeText : Option GradeText) (cfg : ConfigJSON)
    (resp : ResponseJSON) : Outcome :=
  let rounds := cfg.blanks.zipIdx.mapM fun (b, i) =>
    gradeBlank fold gradeText cfg.template cfg.blanks.length resp.answers b i
  match rounds with
  | none => .panicked
  | some rounds =>
      .graded ⟨(rounds.countP Prod.fst : Nat), cfg.blanks.length,
        "\n".intercalate (rounds.map Prod.snd)⟩

/-- A blank without an answer is graded without a look at the accepted ones. -/
theorem gradeBlank_unanswered {gradeText : Option GradeText} {template : String} {blanks i : Nat}
    {answers : List String} (b : Blank)
    (h : ∀ answer, answers[i]? = some answer → trimSpace answer = "") :
    gradeBlank fold gradeText template blanks answers b i = some (false, unanswered i) := by
  unfold gradeBlank
  cases hAnswer : answers[i]? with
  | none => rfl
  | some answer => simp [h answer hAnswer]

theorem fillBlankGradeWithContext_of_rounds {gradeText : Option GradeText} {cfg : ConfigJSON}
    {resp : ResponseJSON} (round : Blank × Nat → Bool × String)
    (h : ∀ p ∈ cfg.blanks.zipIdx, gradeBlank fold gradeText cfg.template cfg.blanks.length
      resp.answers p.1 p.2 = some (round p)) :
    fillBlankGradeWithContext fold gradeText cfg resp =
      .graded ⟨((cfg.blanks.zipIdx.map round).countP Prod.fst : Nat), cfg.blanks.length,
        "\n".intercalate ((cfg.blanks.zipIdx.map round).map Prod.snd)⟩ := by
  unfold fillBlankGradeWithContext
  rw [mapM_eq_some_map h]

theorem fillBlankGradeWithContext_unanswered {gradeText : Option GradeText} {cfg : ConfigJSON}
    {resp : ResponseJSON} (h : ∀ i answer, i < cfg.blanks.length →
      resp.answers[i]? = some answer → trimSpace answer = "") :
    fillBlankGradeWithContext fold gradeText cfg resp =
      .graded ⟨0, cfg.blanks.length,
        "\n".intercalate ((List.range cfg.blanks.length).map unanswered)⟩ := by
  rw [fillBlankGradeWithContext_of_rounds fold (fun p => (false, unanswered p.2)) fun p hp => ?_]
  · have hCount : (cfg.blanks.zipIdx.map fun p => (false, unanswered p.2)).countP Prod.fst = 0 :=
      List.countP_eq_zero.2 fun p hp => by
        obtain ⟨q, -, rfl⟩ := List.mem_map.1 hp
        exact Bool.false_ne_true
    have hTexts : (cfg.blanks.zipIdx.map fun p => (false, unanswered p.2)).map Prod.snd =
        (List.range cfg.blanks.length).map unanswered := by
      rw [List.map_map, List.range_eq_range', ← List.zipIdx_map_snd 0 cfg.blanks, List.map_map]
      rfl
    rw [hCount, hTexts]
    rfl
  · have hLt := List.snd_lt_of_mem_zipIdx hp
    exact gradeBlank_unanswered fold p.1 fun answer => h p.2 answer (by simpa using hLt)

/-- The line of a blank whose answer counts, when the AI model accepts every answer. -/
def acceptedLine (b : Blank) (answer : String) (i : Nat) : String :=
  if b.accepts fold answer then blankName i ++ "Chính xác!"
  else blankName i ++ "Chính xác (chấm bằng AI: " ++ trimSpace answer ++ ")"

def acceptAll : GradeText := fun _ _ _ => ⟨1, "", false⟩

theorem gradeBlank_acceptAll {template answer : String} {blanks i : Nat} {answers : List String}
    (b : Blank) (hAnswer : answers[i]? = some answer) (hText : trimSpace answer ≠ "") :
    gradeBlank fold (some acceptAll) template blanks answers b i =
      some (true, acceptedLine fold b answer i) := by
  have hScore : (4 / 5 : ℚ) ≤ 1 := by norm_num
  unfold gradeBlank acceptedLine
  simp only [hAnswer]
  by_cases hb : b.accepts fold answer = true <;>
    simp [hText, hb, gradeBlankByText, acceptAll, hScore]

/-- The first blank alone is answered, and the AI model accepts every answer. -/
theorem fillBlankGradeWithContext_acceptAll {cfg : ConfigJSON} {b : Blank} {rest : List Blank}
    {answer : String} (hBlanks : cfg.blanks = b :: rest) (hText : trimSpace answer ≠ "") :
    fillBlankGradeWithContext fold (some acceptAll) cfg (.fillBlank [answer]) =
      .graded ⟨1, (rest.length + 1 : Nat), "\n".intercalate (acceptedLine fold b answer 0 ::
        (List.range' 1 rest.length).map unanswered)⟩ := by
  rw [fillBlankGradeWithContext_of_rounds fold (fun p =>
    if p.2 = 0 then (true, acceptedLine fold b answer 0) else (false, unanswered p.2))
    fun p hp => ?_]
  · have hLater : ((rest.zipIdx 1).map fun p => if p.2 = 0 then
        (true, acceptedLine fold b answer 0) else (false, unanswered p.2)) =
        (List.range' 1 rest.length).map fun i => (false, unanswered i) := by
      rw [← List.zipIdx_map_snd 1 rest, List.map_map]
      refine List.map_congr_left fun p hp => ?_
      have hPos := List.le_snd_of_mem_zipIdx hp
      exact if_neg (by omega)
    have hCount : ((List.range' 1 rest.length).map fun i => (false, unanswered i)).countP
        Prod.fst = 0 := List.countP_eq_zero.2 fun p hp => by
      obtain ⟨i, -, rfl⟩ := List.mem_map.1 hp
      exact Bool.false_ne_true
    rw [hBlanks, List.zipIdx_cons, List.map_cons, hLater]
    simp [hCount, Function.comp_def]
  · obtain ⟨c, i⟩ := p
    rw [hBlanks, List.zipIdx_cons, List.mem_cons] at hp
    rcases hp with hp | hp
    · cases hp
      exact gradeBlank_acceptAll fold b rfl hText
    · have hPos := List.le_snd_of_mem_zipIdx hp
      have hNone : [answer][i]? = none := List.getElem?_eq_none (by simpa using hPos)
      rw [if_neg (by omega)]
      exact gradeBlank_unanswered fold c fun a ha => absurd (hNone.symm.trans ha) nofun

theorem intercalate_head_inj {sep a b : String} {l : List String}
    (h : sep.intercalate (a :: l) = sep.intercalate (b :: l)) : a = b := by
  cases l with
  | nil => simpa using h
  | cons c l =>
    rw [String.intercalate_cons_cons, String.intercalate_cons_cons, String.append_assoc,
      String.append_assoc] at h
    have hChars := congrArg String.toList h
    rw [String.toList_append, String.toList_append (s := b)] at hChars
    exact String.toList_inj.1 (List.append_cancel_right hChars)

end Grade

end Richter.Interactions
