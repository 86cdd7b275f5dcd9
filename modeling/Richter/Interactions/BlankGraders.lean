import Richter.Interactions.Accepted
import Richter.Interactions.FillBlank

/-! The two graders of fill-in-the-blank questions side by side, and the questions on which the one
that asks an AI model has no answer to suggest. -/

namespace Richter.Interactions

open Lib
open Lessons (trimSpace)

/-- An AI model that answers with an error. -/
def failingText : GradeText := fun _ _ _ => ⟨0, "", true⟩

section Rounds

variable {fold : Char → Char} {gradeText : Option GradeText} {template answer : String}
  {blanks i : Nat} {answers : List String} {b : Blank} {cfg : ConfigJSON} {resp : ResponseJSON}

theorem equalFold_empty (s : String) : equalFold fold "" s = true ↔ s = "" := by
  have hEmpty : ("" : String).toList.map fold = [] := rfl
  rw [equalFold, decide_eq_true_eq, hEmpty]
  constructor
  · intro h
    exact String.toList_inj.mp (List.map_eq_nil_iff.mp h.symm)
  · rintro rfl
    rfl

/-- A blank answer is accepted where an accepted one is blank. -/
theorem accepts_of_blank (h : trimSpace answer = "") :
    b.accepts fold answer = true ↔ ∃ want ∈ b.accepted, trimSpace want = "" := by
  simp only [Blank.accepts, h, List.any_eq_true]
  refine exists_congr fun want => and_congr_right fun _ => ?_
  split
  · rw [decide_eq_true_eq]
    exact eq_comm
  · exact equalFold_empty _

/-- The line of a blank, without one when an AI model has refused an answer and there is none to
suggest. -/
theorem gradeBlank_isSome (h : b.accepted ≠ []) :
    (gradeBlank fold gradeText template blanks answers b i).isSome := by
  unfold gradeBlank
  split
  · rfl
  · simp only
    split
    · rfl
    · split
      · rfl
      · split
        · simp only [gradeBlankByText]
          split
          · rfl
          · split
            · exact absurd ‹_› h
            · rfl
        · rfl

theorem gradeBlank_none_isSome :
    (gradeBlank fold none template blanks answers b i).isSome := by
  unfold gradeBlank
  split
  · rfl
  · simp only
    split
    · rfl
    · split <;> rfl

theorem gradeBlank_failing (h : b.accepted = []) (hAnswer : answers[i]? = some answer)
    (hText : trimSpace answer ≠ "") :
    gradeBlank fold (some failingText) template blanks answers b i = none := by
  have hNot : b.accepts fold answer = false := by simp [Blank.accepts, h]
  unfold gradeBlank
  simp [hAnswer, hText, hNot, gradeBlankByText, failingText, h]

/-- An answer that is not blank and that the static grader knows counts. -/
theorem gradeBlank_known (hAnswer : answers[i]? = some answer) (hText : trimSpace answer ≠ "")
    (hKnown : b.accepts fold answer = true) :
    gradeBlank fold gradeText template blanks answers b i =
      some (true, blankName i ++ "Chính xác!") := by
  unfold gradeBlank
  simp [hAnswer, hText, hKnown]

/-- Without an AI model no other answer counts. -/
theorem gradeBlank_none_counts
    (h : (gradeBlank fold none template blanks answers b i).any Prod.fst) :
    ∃ answer, answers[i]? = some answer ∧ trimSpace answer ≠ "" ∧ b.accepts fold answer = true := by
  unfold gradeBlank at h
  split at h
  · cases h
  · next answer hAnswer =>
    simp only at h
    split at h
    · cases h
    · next hText =>
      split at h
      · next hKnown => exact ⟨answer, hAnswer, hText, hKnown⟩
      · cases h

/-- All rounds come to a line. -/
theorem fillBlankGradeWithContext_graded (fold : Char → Char) (gradeText : Option GradeText)
    (cfg : ConfigJSON) (resp : ResponseJSON) (h : ∀ p ∈ cfg.blanks.zipIdx, (gradeBlank fold
      gradeText cfg.template cfg.blanks.length resp.answers p.1 p.2).isSome) :
    ∃ lines : List (Bool × String), lines.length = cfg.blanks.length ∧
      lines.countP Prod.fst = (cfg.blanks.zipIdx.countP fun p => (gradeBlank fold gradeText
        cfg.template cfg.blanks.length resp.answers p.1 p.2).any Prod.fst) ∧
      fillBlankGradeWithContext fold gradeText cfg resp = .graded ⟨(lines.countP Prod.fst : Nat),
        cfg.blanks.length, "\n".intercalate (lines.map Prod.snd)⟩ := by
  refine ⟨_, ?_, ?_, fillBlankGradeWithContext_of_rounds fold (fun p => (gradeBlank fold gradeText
    cfg.template cfg.blanks.length resp.answers p.1 p.2).getD default) fun p hp => ?_⟩
  · rw [List.length_map, List.length_zipIdx]
  · rw [List.countP_map]
    refine List.countP_congr fun p hp => ?_
    obtain ⟨line, hLine⟩ := Option.isSome_iff_exists.mp (h p hp)
    simp [hLine]
  · obtain ⟨line, hLine⟩ := Option.isSome_iff_exists.mp (h p hp)
    simp [hLine]

/-- A round without a line ends the grading. -/
theorem fillBlankGradeWithContext_panicked {p : Blank × Nat} (hp : p ∈ cfg.blanks.zipIdx)
    (h : gradeBlank fold gradeText cfg.template cfg.blanks.length resp.answers p.1 p.2 = none) :
    fillBlankGradeWithContext fold gradeText cfg resp = .panicked := by
  unfold fillBlankGradeWithContext
  rw [mapM_eq_none hp h]

end Rounds

/-- Fill-in-the-blank grading with an AI model: a grade with a line for each blank. -/
def Outcome.TellsEach (blanks : Nat) : Outcome → Prop
  | .graded grade => grade.maxScore = blanks ∧
      ∃ lines : List String, lines.length = blanks ∧ grade.feedback = "\n".intercalate lines
  | .failed | .panicked => False

/-- Of a generated question every response gets a line for each blank, whatever the AI model
answers, just when each blank has an accepted answer. -/
theorem parsed_fillBlank_graded_iff (fold : Char → Char) {prompt explanation template : String}
    {startSeconds : ℚ} {blanks : List Blank} {parsed : ParsedItem}
    (h : parseGeminiItem (.fillBlank prompt explanation startSeconds template blanks) =
      .ok parsed) :
    (∀ (gradeText : Option GradeText) (resp : ResponseJSON),
      (fillBlankGradeWithContext fold gradeText parsed.config resp).TellsEach blanks.length) ↔
    ∀ b ∈ blanks, b.accepted ≠ [] := by
  obtain ⟨-, rfl⟩ := parseGeminiItem_fillBlank.mp h
  constructor
  · intro hTells b hb hNil
    obtain ⟨i, hi, rfl⟩ := List.mem_iff_getElem.mp hb
    have hMem : (blanks[i], i) ∈ (ConfigJSON.fillBlank template blanks).blanks.zipIdx :=
      List.mk_mem_zipIdx_iff_getElem?.mpr (List.getElem?_eq_getElem hi)
    let resp := ResponseJSON.fillBlank (List.replicate blanks.length "x")
    have hAnswer : resp.answers[i]? = some "x" := by simp [resp, ResponseJSON.answers, hi]
    have hText : trimSpace "x" ≠ "" := by decide +kernel
    have hTold := hTells (some failingText) resp
    rw [fillBlankGradeWithContext_panicked hMem (gradeBlank_failing hNil hAnswer hText)] at hTold
    exact hTold
  · intro hSome gradeText resp
    obtain ⟨lines, hLength, -, hGraded⟩ := fillBlankGradeWithContext_graded fold gradeText
      (.fillBlank template blanks) resp fun p hp =>
        gradeBlank_isSome (hSome p.1 (List.fst_mem_of_mem_zipIdx hp))
    rw [hGraded]
    exact ⟨rfl, lines.map Prod.snd, by rw [List.length_map, hLength]; rfl, rfl⟩

theorem parsed_fillBlank_graded_iff_mot :
    (fillBlankGradeWithContext Char.toLower (some failingText)
      (.fillBlank "Một cộng \x7b\x7b0\x7d\x7d" [⟨["một"], false, ""⟩])
      (.fillBlank ["hai"])).TellsEach 1 :=
  (parsed_fillBlank_graded_iff Char.toLower (show parseGeminiItem (.fillBlank "Điền" "" 0
    "Một cộng \x7b\x7b0\x7d\x7d" [⟨["một"], false, ""⟩]) = .ok ⟨"Điền", "", 0, _⟩ by
      decide +kernel)).mpr (by simp) (some failingText) (.fillBlank ["hai"])

/-- A blank without an accepted answer, and an AI model that answers with an error. -/
theorem parsed_fillBlank_panics :
    parseGeminiItem (.fillBlank "Điền" "" 0 "Một cộng \x7b\x7b0\x7d\x7d" [⟨[], false, ""⟩]) =
      .ok ⟨"Điền", "", 0, .fillBlank "Một cộng \x7b\x7b0\x7d\x7d" [⟨[], false, ""⟩]⟩ ∧
    fillBlankGradeWithContext Char.toLower (some failingText)
      (.fillBlank "Một cộng \x7b\x7b0\x7d\x7d" [⟨[], false, ""⟩]) (.fillBlank ["hai"]) =
      .panicked := by
  decide +kernel

/-- The graders agree on an answer to a blank: a blank answer is not compared with a blank accepted
one, and there is an accepted answer to suggest for another. -/
def Blank.GradedAlike (b : Blank) (answer : String) : Prop :=
  (trimSpace answer = "" → ∀ want ∈ b.accepted, trimSpace want ≠ "") ∧
    (trimSpace answer ≠ "" → b.accepted ≠ [])

section Agreement

variable {fold : Char → Char} {cfg : ConfigJSON} {resp : ResponseJSON}

/-- `Grade` counts what `GradeWithContext` counts without an AI model. -/
theorem static_of_gradeBlank_none {template : String} {blanks i : Nat} {answers : List String}
    {b : Blank} (h : (gradeBlank fold none template blanks answers b i).any Prod.fst = true) :
    (answers[i]?).any (b.accepts fold) = true := by
  obtain ⟨answer, hAnswer, -, hKnown⟩ := gradeBlank_none_counts h
  simp [hAnswer, hKnown]

/-- Where the answers are graded alike, `GradeWithContext` counts what `Grade` counts. -/
theorem gradeBlank_of_static {gradeText : Option GradeText} {template : String} {blanks i : Nat}
    {answers : List String} {b : Blank}
    (hAlike : ∀ answer, answers[i]? = some answer → b.GradedAlike answer)
    (h : (answers[i]?).any (b.accepts fold) = true) :
    (gradeBlank fold gradeText template blanks answers b i).any Prod.fst = true := by
  cases hAnswer : answers[i]? with
  | none => simp [hAnswer] at h
  | some answer =>
    rw [hAnswer, Option.any_some] at h
    have hText : trimSpace answer ≠ "" := by
      intro hBlank
      obtain ⟨want, hWant, hEmpty⟩ := (accepts_of_blank hBlank).mp h
      exact (hAlike answer hAnswer).1 hBlank want hWant hEmpty
    rw [gradeBlank_known hAnswer hText h]
    rfl

/-- A condition that counts as much as a weaker one holds of the same members. -/
theorem countP_eq_of_imp {α : Type} {l : List α} {p q : α → Bool}
    (hImp : ∀ a ∈ l, p a = true → q a = true) (h : l.countP p = l.countP q) :
    ∀ a ∈ l, q a = true → p a = true := by
  induction l with
  | nil => simp
  | cons c l ih =>
    rw [List.forall_mem_cons] at hImp
    have hRest : l.countP p ≤ l.countP q := List.countP_mono_left hImp.2
    rw [List.countP_cons, List.countP_cons] at h
    cases hp : p c <;> cases hq : q c
    · simp only [hp, hq] at h
      exact List.forall_mem_cons.mpr ⟨by simp [hq], ih hImp.2 (by omega)⟩
    · simp only [hp, hq] at h
      simp only [Bool.false_eq_true, if_false, if_true] at h
      omega
    · exact absurd (hImp.1 hp) (by simp [hq])
    · simp only [hp, hq, if_true] at h
      exact List.forall_mem_cons.mpr ⟨fun _ => hp, ih hImp.2 (by omega)⟩

/-- Every answer that was given is graded alike. -/
def GradedAlike (cfg : ConfigJSON) (resp : ResponseJSON) : Prop :=
  ∀ p ∈ cfg.blanks.zipIdx, ∀ answer, resp.answers[p.2]? = some answer → p.1.GradedAlike answer

theorem score_fillBlankGrade (fold : Char → Char) (cfg : ConfigJSON) (resp : ResponseJSON) :
    (fillBlankGrade fold cfg resp).score = ((cfg.blanks.zipIdx.countP fun p =>
      (resp.answers[p.2]?).any (p.1.accepts fold) : Nat) : ℚ) := rfl

/-- The same score without an AI model: no blank answer is compared with a blank accepted one. -/
theorem not_blank_of_score {grade : Grade}
    (hNone : fillBlankGradeWithContext fold none cfg resp = .graded grade)
    (hScore : grade.score = (fillBlankGrade fold cfg resp).score) {p : Blank × Nat}
    (hp : p ∈ cfg.blanks.zipIdx) {answer : String} (hAnswer : resp.answers[p.2]? = some answer)
    (hBlank : trimSpace answer = "") : ∀ want ∈ p.1.accepted, trimSpace want ≠ "" := by
  intro want hWant hEmpty
  obtain ⟨lines, -, hCount, hGraded⟩ := fillBlankGradeWithContext_graded fold none cfg resp
    fun p hp => gradeBlank_none_isSome
  rw [hGraded] at hNone
  cases hNone
  rw [score_fillBlankGrade] at hScore
  have hSame := countP_eq_of_imp (fun q _ h => static_of_gradeBlank_none h)
    (hCount.symm.trans (Nat.cast_injective hScore)) p hp
  have hKnown : (resp.answers[p.2]?).any (p.1.accepts fold) = true := by
    rw [hAnswer, Option.any_some]
    exact (accepts_of_blank hBlank).mpr ⟨want, hWant, hEmpty⟩
  obtain ⟨answer', hAnswer', hNotBlank, -⟩ := gradeBlank_none_counts (hSame hKnown)
  rw [hAnswer] at hAnswer'
  cases hAnswer'
  exact hNotBlank hBlank

/-- Where the answers are graded alike, all rounds come to a line. -/
theorem GradedAlike.gradeBlank_isSome (hAlike : GradedAlike cfg resp)
    (gradeText : Option GradeText) : ∀ p ∈ cfg.blanks.zipIdx, (gradeBlank fold gradeText
      cfg.template cfg.blanks.length resp.answers p.1 p.2).isSome := by
  intro p hp
  cases hAnswer : resp.answers[p.2]? with
  | none => simp [gradeBlank, hAnswer]
  | some answer =>
    by_cases hBlank : trimSpace answer = ""
    · simp [gradeBlank, hAnswer, hBlank]
    · exact Interactions.gradeBlank_isSome ((hAlike p hp answer hAnswer).2 hBlank)

theorem GradedAlike.graded_none (fold : Char → Char) (hAlike : GradedAlike cfg resp) :
    ∃ grade, fillBlankGradeWithContext fold none cfg resp = .graded grade ∧
      grade.score = (fillBlankGrade fold cfg resp).score ∧
      grade.maxScore = (fillBlankGrade fold cfg resp).maxScore := by
  obtain ⟨lines, -, hCount, hGraded⟩ := fillBlankGradeWithContext_graded fold none cfg resp
    (hAlike.gradeBlank_isSome none)
  have hSame : lines.countP Prod.fst = cfg.blanks.zipIdx.countP fun p =>
      (resp.answers[p.2]?).any (p.1.accepts fold) :=
    hCount.trans (List.countP_congr fun p hp =>
      ⟨static_of_gradeBlank_none, gradeBlank_of_static (hAlike p hp)⟩)
  exact ⟨_, hGraded, congrArg (Nat.cast (R := ℚ)) hSame, rfl⟩

theorem GradedAlike.graded_some (fold : Char → Char) (hAlike : GradedAlike cfg resp)
    (gradeText : GradeText) :
    ∃ grade, fillBlankGradeWithContext fold (some gradeText) cfg resp = .graded grade ∧
      (fillBlankGrade fold cfg resp).score ≤ grade.score ∧ grade.score ≤ grade.maxScore := by
  obtain ⟨lines, hLength, hCount, hGraded⟩ := fillBlankGradeWithContext_graded fold
    (some gradeText) cfg resp (hAlike.gradeBlank_isSome (some gradeText))
  have hMore : (cfg.blanks.zipIdx.countP fun p =>
      (resp.answers[p.2]?).any (p.1.accepts fold)) ≤ lines.countP Prod.fst := by
    rw [hCount]
    exact List.countP_mono_left fun p hp => gradeBlank_of_static (hAlike p hp)
  have hAtMost : lines.countP Prod.fst ≤ cfg.blanks.length := hLength ▸ List.countP_le_length
  exact ⟨_, hGraded, Nat.cast_le.mpr hMore, Nat.cast_le.mpr hAtMost⟩

/-- `GradeWithContext` gives `Grade`'s score without an AI model, and with one at least that score
and at most the maximum, just when every answer is graded alike. -/
theorem fillBlankGraders_agree_iff (fold : Char → Char) (cfg : ConfigJSON) (resp : ResponseJSON) :
    ((∃ grade, fillBlankGradeWithContext fold none cfg resp = .graded grade ∧
      grade.score = (fillBlankGrade fold cfg resp).score ∧
      grade.maxScore = (fillBlankGrade fold cfg resp).maxScore) ∧
    ∀ gradeText, ∃ grade, fillBlankGradeWithContext fold (some gradeText) cfg resp = .graded grade ∧
      (fillBlankGrade fold cfg resp).score ≤ grade.score ∧ grade.score ≤ grade.maxScore) ↔
    GradedAlike cfg resp := by
  constructor
  · rintro ⟨⟨grade, hNone, hScore, -⟩, hText⟩ p hp answer hAnswer
    refine ⟨not_blank_of_score hNone hScore hp hAnswer, fun hNotBlank hNil => ?_⟩
    obtain ⟨grade, hGraded, -⟩ := hText failingText
    rw [fillBlankGradeWithContext_panicked hp (gradeBlank_failing hNil hAnswer hNotBlank)]
      at hGraded
    cases hGraded
  · exact fun hAlike => ⟨hAlike.graded_none fold, hAlike.graded_some fold⟩

/-- A blank answer where a blank one is accepted: `Grade` counts it. -/
theorem fillBlankGraders_disagree :
    (fillBlankGrade Char.toLower (.fillBlank "\x7b\x7b0\x7d\x7d" [⟨[" "], false, ""⟩])
      (.fillBlank [""])).score = 1 ∧
    fillBlankGradeWithContext Char.toLower none
      (.fillBlank "\x7b\x7b0\x7d\x7d" [⟨[" "], false, ""⟩]) (.fillBlank [""]) =
      .graded ⟨0, 1, "Chỗ trống 1: Chưa trả lời."⟩ := by
  decide +kernel

end Agreement

end Richter.Interactions
