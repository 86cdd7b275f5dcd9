import Mathlib.Data.Set.Finite.Basic
import Richter.Interactions.AttemptTotals
import Richter.Interactions.FillBlank
import Richter.Interactions.Mapper
import Richter.Interactions.Submission

/-! What the reply of a submission tells about the accepted answers of the lesson's blanks, beyond
the scores. -/

namespace Richter.Interactions

open Lib
open Lessons (trimSpace)

/-- The message `LessonAttemptResponse`. -/
structure LessonAttemptResponseMessage where
  interactionId : UUID
  score : ℚ
  maxScore : ℚ
  feedback : String
  response : Answer
  deriving DecidableEq

/-- The message `LessonAttempt`. -/
structure LessonAttemptMessage where
  id : UUID
  lessonId : UUID
  userId : UUID
  totalScore : ℚ
  maxScore : ℚ
  status : String
  responses : List LessonAttemptResponseMessage
  attemptCount : Nat
  deriving DecidableEq

/-- What the handler of a kind puts into the field `response`, if there is a handler. -/
def InteractionKind.responseMessage (resp : ResponseJSON) : InteractionKind → Option Answer
  | .singleChoice => some (.mcqSelected (toInt32 resp.selected))
  | .multipleChoice => some (.mcqMultiple (resp.selectedIndexes.map toInt32))
  | .fillBlank => some (.fillBlank resp.answers)
  | .listening => some (.listening resp.comprehensionAnswers)
  | .reading => some (.reading resp.audioObjectKey)
  | .writing => some (.writing resp.essay)
  | .unspecified => none

/-- `BuildResponseProto`. -/
def buildResponseProto (r : LessonAttemptResponse) (kind : String) :
    Option LessonAttemptResponseMessage :=
  ((dbStringToKind kind).responseMessage r.response).map fun response =>
    ⟨r.interactionId, r.score, r.maxScore, r.feedback, response⟩

/-- `AttemptToProto`. -/
def attemptToProto (a : LessonAttempt) (responses : List (LessonAttemptResponse × String)) :
    LessonAttemptMessage where
  id := a.id
  lessonId := a.lessonId
  userId := a.userId
  totalScore := a.totalScore
  maxScore := a.maxScore
  status := a.status
  responses := responses.filterMap fun r => buildResponseProto r.1 r.2
  attemptCount := a.attemptCount

/-- The reply of a submission. -/
def submitReply (r : Except Error (LessonAttempt × List (LessonAttemptResponse × String))) :
    Except Error LessonAttemptMessage :=
  r.map fun out => attemptToProto out.1 out.2

section Grading

variable (fold : Char → Char) (gradeText : GradeText) (deps : GradingDeps)

/-- What the handler of fill-in-the-blank questions comes to. -/
def fillBlankOutcome (cfg : ConfigJSON) (resp : ResponseJSON) : Outcome :=
  match deps with
  | .resolved => fillBlankGradeWithContext fold (some gradeText) cfg resp
  | _ => .graded (fillBlankGrade fold cfg resp)

/-- The environment of an operation, where fill-in-the-blank questions are graded by their handler
and the AI model answers `gradeText`. -/
def SiteEnv.withGradeText (env : SiteEnv) (x : Site) : Op → SiteEnv
  | .grade interaction response =>
      if dbStringToKind interaction.kind = .fillBlank then
        { env with
          outcome := fillBlankOutcome fold gradeText deps (x.config interaction.id) response }
      else env
  | _ => env

def gradingExec (env : SiteEnv) (o : Op) (x : Site) : Option (o.Resp × Site) :=
  siteExec deps (env.withGradeText fold gradeText deps x o) o x

end Grading

/-- The score of a response that a grader has given. -/
def scoreOf : Prog.Event Op Op.Resp → Option (UUID × ℚ × ℚ)
  | ⟨.grade i _, g⟩ => some (i.id, g.score, g.maxScore)
  | _ => none

/-- The scores that graders have given to the responses, in their order. -/
def History.scores (h : History) : List (UUID × ℚ × ℚ) := h.filterMap scoreOf

/-- A configuration without the accepted answers of its blanks. -/
def ConfigJSON.withoutAccepted : ConfigJSON → ConfigJSON
  | .fillBlank template blanks =>
      .fillBlank template (blanks.map fun b => { b with accepted := [] })
  | cfg => cfg

/-- The reply of every submission to a lesson whose mode is `hidden` is the same for all accepted
answers that lead to the same scores. -/
def HidesAnswers (s : InteractionsSvc) (fold : Char → Char) (deps : GradingDeps) (x : Site)
    (lessonID : UUID) : Prop :=
  x.feedbackMode lessonID = "hidden" →
    ∀ config : UUID → ConfigJSON,
      (∀ id, (config id).withoutAccepted = (x.config id).withoutAccepted) →
    ∀ gradeText caller req envs r y r' y' (h h' : History), req.lessonId = lessonID →
      (submitAttempt s caller req).run.log (gradingExec fold gradeText deps) envs x =
        some (r, y, h) →
      (submitAttempt s caller req).run.log (gradingExec fold gradeText deps) envs
        { x with config := config } = some (r', y', h') →
      h.scores = h'.scores → submitReply r = submitReply r'

section Program

/-! A submission grades responses of its request to interactions that it has listed. -/

variable (s : InteractionsSvc) (req : SubmitAttemptRequest)

/-- The response is one of the request to the interaction, as its handler stores it. -/
def Responds (i : LessonInteraction) (response : ResponseJSON) : Prop :=
  ∃ resp ∈ req.responses, resp.interactionId = i.id ∧
    ∃ toJSON, responseProtoToJSON (dbStringToKind i.kind) = some toJSON ∧
      toJSON resp.response = .ok response

/-- The lesson has been read, and the interaction has been listed. -/
def Listed (i : LessonInteraction) (h : History) : Prop :=
  (∃ lesson, h.Has (.getLessonByID req.lessonId) (.ok lesson)) ∧
    ∃ is, h.Has (.listLessonInteractions req.lessonId s.listLimit 0) (.ok is) ∧ i ∈ is

def GradesListed (h : History) : Op → Prop
  | .grade i response => Listed s req i h ∧ Responds req i response
  | _ => True

def Op.isGrade : Op → Bool
  | .grade .. => true
  | _ => false

variable {s req} {α : Type} {h : History}

theorem Listed.mono {i : LessonInteraction} {h' : History} (hSub : h ⊆ h')
    (hListed : Listed s req i h) : Listed s req i h' := by
  obtain ⟨⟨lesson, hLesson⟩, is, hIs, hi⟩ := hListed
  exact ⟨⟨lesson, hSub hLesson⟩, is, hSub hIs, hi⟩

theorem gradesListed_of_not_grade {o : Op} (ho : o.isGrade = false) : GradesListed s req h o := by
  cases o with
  | grade => cases ho
  | _ => trivial

variable (s req) in
abbrev Grades (x : Handler α) (ok : α → History → Prop) (h : History) : Prop :=
  Prog.Meets (fun o h r h' => h' = h ++ [⟨o, r⟩]) (GradesListed s req) x ok (fun _ => True) h

theorem grades_of_performs {x : Handler α} (hx : x.run.Performs fun o => o.isGrade = false) :
    Grades s req x (fun _ h' => h ⊆ h') h := by
  refine (Prog.Performs.meets (I := fun h' => h ⊆ h') hx
    (fun _ _ ho _ => gradesListed_of_not_grade ho) ?_ (List.Subset.refl h)).mono (fun _ _ => id)
    fun _ _ => trivial
  rintro o h₁ r _ - hSub rfl
  exact List.Subset.trans hSub (List.subset_append_left ..)

theorem grades_orConnectDBError (r : Except DbError α) {ok : α → History → Prop}
    (hOk : ∀ a, r = .ok a → ok a h) : Grades s req (orConnectDBError r) ok h := by
  cases r with
  | error e => trivial
  | ok a => exact hOk a rfl

theorem gradeResponse_grades {userID : UUID} {interactions : List LessonInteraction}
    {resp : AttemptResponseInput} (hResp : resp ∈ req.responses)
    (hListed : ∀ i ∈ interactions, Listed s req i h) :
    Grades s req (gradeResponse s userID req.lessonId interactions resp) (fun _ h' => h ⊆ h')
      h := by
  unfold gradeResponse
  split
  · trivial
  · next interaction hFind =>
    have hMem := List.mem_of_find?_eq_some hFind
    have hId : interaction.id = resp.interactionId := by simpa using List.find?_some hFind
    split
    · trivial
    · next toJSON hKind =>
      split
      · trivial
      · next responseJSON hJSON =>
        refine (grades_of_performs
          (cachedGrade_performs _ _ _ responseJSON rfl)).bind ?_
        intro cached h₁ hSub
        cases cached with
        | some grade => exact hSub
        | none =>
          refine ⟨⟨(hListed interaction hMem).mono hSub, resp, hResp, hId.symm, toJSON, hKind,
            hJSON⟩, ?_⟩
          rintro grade _ rfl
          exact List.Subset.trans hSub (List.subset_append_left ..)

theorem gradeResponses_grades {userID : UUID} {interactions : List LessonInteraction}
    {responses : List AttemptResponseInput} (hResponses : responses ⊆ req.responses)
    (hListed : ∀ i ∈ interactions, Listed s req i h) :
    Grades s req (gradeResponses s userID req.lessonId interactions responses)
      (fun _ h' => h ⊆ h') h := by
  induction responses generalizing h with
  | nil => exact List.Subset.refl h
  | cons resp rest ih =>
    rw [List.cons_subset] at hResponses
    refine (gradeResponse_grades hResponses.1 hListed).bind ?_
    intro g h₁ hSub
    refine (ih hResponses.2 fun i hi =>
      (hListed i hi).mono hSub).bind ?_
    intro graded h₂ hSub₂
    exact List.Subset.trans hSub hSub₂

theorem submitAttempt_grades (s : InteractionsSvc) (caller : Except Error UUID)
    (req : SubmitAttemptRequest) :
    Grades s req (submitAttempt s caller req) (fun _ _ => True) [] := by
  cases caller with
  | error e => trivial
  | ok userID =>
    refine ⟨trivial, ?_⟩
    rintro r _ rfl
    refine (Prog.meets_bind _).mpr (grades_orConnectDBError r ?_)
    rintro lesson rfl
    refine (grades_of_performs
      (requireAttemptLeft_performs _ _ lesson rfl)).bind ?_
    intro _ h₁ hSub
    refine ⟨trivial, ?_⟩
    rintro r _ rfl
    refine (Prog.meets_bind _).mpr (grades_orConnectDBError r ?_)
    rintro interactions rfl
    have hListed : ∀ i ∈ interactions, Listed s req i
        (h₁ ++ [⟨.listLessonInteractions req.lessonId s.listLimit 0, .ok interactions⟩]) :=
      fun i hi => ⟨⟨lesson, List.mem_append_left _ (hSub (by simp))⟩, interactions, by simp, hi⟩
    split
    · trivial
    · refine (gradeResponses_grades (List.Subset.refl _) hListed).bind ?_
      intro graded h₂ _
      refine (grades_of_performs
        (previousAttempt_performs _ _ rfl fun _ => rfl)).bind ?_
      intro prev h₃ _
      refine (grades_of_performs
        (watchFraction_performs _ _ lesson fun _ => rfl)).bind ?_
      intro fraction h₄ _
      refine ⟨trivial, fun r h₅ _ => ?_⟩
      refine (Prog.meets_bind _).mpr (grades_orConnectDBError r ?_)
      rintro out rfl
      exact (grades_of_performs (performAll_performs
        (of_mem_cleanup s userID (fun _ => rfl) fun _ _ => rfl))).bind (fun _ _ _ => trivial)

end Program

section Silent

/-! Where a submission says the same for all accepted answers. -/

theorem handlerGrade_withoutAccepted (withContext : Bool) (outcome : Outcome)
    (kind : InteractionKind) (cfg : ConfigJSON) (resp : ResponseJSON) :
    handlerGrade withContext outcome kind cfg.withoutAccepted resp =
      handlerGrade withContext outcome kind cfg resp := by
  cases cfg <;> rfl

theorem submitGrade_withoutAccepted (deps : GradingDeps) (outcome : Outcome)
    (kind : InteractionKind) (cfg : ConfigJSON) (resp : ResponseJSON) :
    submitGrade deps outcome kind cfg.withoutAccepted resp =
      submitGrade deps outcome kind cfg resp := by
  simp only [submitGrade, handlerGrade_withoutAccepted]

theorem length_blanks_withoutAccepted (cfg : ConfigJSON) :
    cfg.withoutAccepted.blanks.length = cfg.blanks.length := by
  cases cfg with
  | fillBlank template blanks => exact List.length_map _
  | _ => rfl

variable {fold : Char → Char} {gradeText : GradeText} {deps : GradingDeps} {cfg cfg' : ConfigJSON}
  {resp : ResponseJSON} {kind : InteractionKind}

/-- The grade of a response in `SubmitAttempt`. -/
def textGrade (fold : Char → Char) (gradeText : GradeText) (deps : GradingDeps)
    (outcome : Outcome) (kind : InteractionKind) (cfg : ConfigJSON) (resp : ResponseJSON) : Grade :=
  submitGrade deps
    (if kind = .fillBlank then fillBlankOutcome fold gradeText deps cfg resp else outcome) kind cfg
    resp

/-- No blank that an AI model may be asked about is answered. -/
def Unanswered (deps : GradingDeps) (kind : InteractionKind) (cfg : ConfigJSON)
    (resp : ResponseJSON) : Prop :=
  deps = .resolved → kind = .fillBlank → ∀ i answer, i < cfg.blanks.length →
    resp.answers[i]? = some answer → trimSpace answer = ""

/-- Without an answered blank, the score tells as much as the grade. -/
theorem textGrade_eq {outcome : Outcome} (hCfg : cfg'.withoutAccepted = cfg.withoutAccepted)
    (hUnanswered : Unanswered deps kind cfg resp)
    (hScore : (textGrade fold gradeText deps outcome kind cfg resp).score =
      (textGrade fold gradeText deps outcome kind cfg' resp).score)
    (hMax : (textGrade fold gradeText deps outcome kind cfg resp).maxScore =
      (textGrade fold gradeText deps outcome kind cfg' resp).maxScore) :
    textGrade fold gradeText deps outcome kind cfg resp =
      textGrade fold gradeText deps outcome kind cfg' resp := by
  by_cases hKind : kind = .fillBlank
  · subst hKind
    cases deps with
    | unset => exact congrArg₂ (Grade.mk · · "") hScore hMax
    | unresolved => rfl
    | resolved =>
      have hLength : cfg'.blanks.length = cfg.blanks.length := by
        rw [← length_blanks_withoutAccepted, hCfg, length_blanks_withoutAccepted]
      have hBlank := hUnanswered rfl rfl
      have hBlank' : ∀ i answer, i < cfg'.blanks.length → resp.answers[i]? = some answer →
          trimSpace answer = "" := fun i answer hi => hBlank i answer (hLength ▸ hi)
      simp only [textGrade, if_true, fillBlankOutcome, hLength,
        fillBlankGradeWithContext_unanswered fold hBlank,
        fillBlankGradeWithContext_unanswered fold hBlank']
      rfl
  · simp only [textGrade, if_neg hKind]
    have hSame := submitGrade_withoutAccepted deps outcome kind cfg resp
    rw [← hSame, ← hCfg, submitGrade_withoutAccepted]

theorem gradingExec_grade {env : SiteEnv} {i : LessonInteraction} {x y : Site} {g : Grade}
    (h : gradingExec fold gradeText deps env (.grade i resp) x = some (g, y)) :
    g = textGrade fold gradeText deps env.outcome (dbStringToKind i.kind) (x.config i.id) resp ∧
      y = x := by
  obtain ⟨db, hDb, rfl⟩ := siteExec_cases h
  simp only [exec, Option.some.injEq, Prod.mk.injEq] at hDb
  obtain ⟨rfl, rfl⟩ := hDb
  refine ⟨?_, by simp [Op.background]⟩
  simp only [SiteEnv.toEnv, SiteEnv.withGradeText, textGrade]
  split <;> rfl

/-- No other operation looks at a configuration. -/
theorem gradingExec_of_not_grade {env : SiteEnv} {o : Op} {x : Site} (ho : o.isGrade = false)
    (config : UUID → ConfigJSON) :
    gradingExec fold gradeText deps env o { x with config := config } =
      (gradingExec fold gradeText deps env o x).map fun (r, y) =>
        (r, { y with config := config }) := by
  have hEnv : (env.withGradeText fold gradeText deps { x with config := config } o).toEnv deps
        { x with config := config } o =
      (env.withGradeText fold gradeText deps x o).toEnv deps x o := by
    cases o with
    | grade => cases ho
    | _ => rfl
  unfold gradingExec siteExec
  rw [hEnv, Option.map_map]
  rfl

/-- A response that answers no blank is graded alike when it gets the same score. -/
theorem graded_alike {s : InteractionsSvc} {x u v v' : Site} {config : UUID → ConfigJSON}
    {req : SubmitAttemptRequest} {env : SiteEnv} {h : History} {i : LessonInteraction}
    {g g' : Grade}
    (hConfig : ∀ id, (config id).withoutAccepted = (x.config id).withoutAccepted)
    (hUnanswered : (x.db.lessons.find req.lessonId).isSome →
      ∀ i ∈ listLessonInteractions req.lessonId s.listLimit 0 x.db, ∀ response,
        Responds req i response →
          Unanswered deps (dbStringToKind i.kind) (x.config i.id) response)
    (hTrace : Prog.Trace (gradingExec fold gradeText deps) x h u)
    (hListed : Listed s req i h) (hResponds : Responds req i resp)
    (hExec : gradingExec fold gradeText deps env (.grade i resp) u = some (g, v))
    (hExec' : gradingExec fold gradeText deps env (.grade i resp) { u with config := config } =
      some (g', v')) :
    v' = { v with config := config } ∧
      (g.score = g'.score → g.maxScore = g'.maxScore → g = g') := by
  have hSite : Prog.Trace (siteExec deps) x h u := hTrace.mono fun _ _ _ _ _ hStep => ⟨_, hStep⟩
  obtain ⟨⟨lesson, hLesson⟩, is, hIs, hi⟩ := hListed
  have hFind := trace_lesson hSite hLesson
  rw [trace_listed hSite hIs] at hi
  obtain ⟨hGrade, hSame⟩ := gradingExec_grade hExec
  obtain ⟨hGrade', hSame'⟩ := gradingExec_grade hExec'
  rw [(trace_kept hSite).config] at hGrade
  refine ⟨by rw [hSame, hSame'], fun hScore hMax => ?_⟩
  rw [hGrade, hGrade'] at hScore hMax ⊢
  exact textGrade_eq (hConfig i.id)
    (hUnanswered (Option.isSome_iff_exists.2 ⟨lesson, hFind⟩) i hi resp hResponds) hScore hMax

/-- A submission none of whose graded responses answers a blank runs alike for all accepted answers
that lead to the same scores. -/
theorem submitAttempt_silent {s : InteractionsSvc} {x : Site} {config : UUID → ConfigJSON}
    {caller : Except Error UUID} {req : SubmitAttemptRequest} {envs : List SiteEnv}
    {r r' : Except Error (LessonAttempt × List (LessonAttemptResponse × String))} {y y' : Site}
    {h h' : History}
    (hConfig : ∀ id, (config id).withoutAccepted = (x.config id).withoutAccepted)
    (hUnanswered : (x.db.lessons.find req.lessonId).isSome →
      ∀ i ∈ listLessonInteractions req.lessonId s.listLimit 0 x.db, ∀ response,
        Responds req i response →
          Unanswered deps (dbStringToKind i.kind) (x.config i.id) response)
    (hLog : (submitAttempt s caller req).run.log (gradingExec fold gradeText deps) envs x =
      some (r, y, h))
    (hLog' : (submitAttempt s caller req).run.log (gradingExec fold gradeText deps) envs
      { x with config := config } = some (r', y', h'))
    (hScores : h.scores = h'.scores) : r' = r ∧ h' = h := by
  have hAlong : (submitAttempt s caller req).run.Along (GradesListed s req) (fun _ _ => True) [] :=
    Prog.Ensures.mono (submitAttempt_grades s caller req) (fun _ _ => id) fun _ _ _ => trivial
  have hAgree := hAlong.log_agree scoreOf (fun x => { x with config := config })
    (fun h₂ w o u v r₁ v' r₁' hTrace hP hExec hExec' => ?_) hLog hLog' hScores
  · exact ⟨hAgree.1, hAgree.2.2⟩
  · by_cases ho : o.isGrade = false
    · rw [gradingExec_of_not_grade ho, hExec, Option.map_some, Option.some.injEq,
        Prod.mk.injEq] at hExec'
      exact ⟨hExec'.2.symm, by rw [hExec'.1], fun _ => hExec'.1⟩
    · cases o with
      | grade i response =>
        have hAlike := graded_alike hConfig hUnanswered hTrace hP.1 hP.2 hExec hExec'
        refine ⟨hAlike.1, rfl, fun hObs => ?_⟩
        simp only [scoreOf, Option.some.injEq, Prod.mk.injEq, true_and] at hObs
        exact hAlike.2 hObs.1 hObs.2
      | _ => exact absurd rfl ho

end Silent

section Reply

/-! The feedback of a response in the reply. -/

/-- What a submission of one response answers. -/
def storedOne (db : Db) (newID : UUID) (p : UpsertLessonAttemptParams)
    (r : UpsertAttemptResponseParams) : LessonAttempt × List (LessonAttemptResponse × String) :=
  let a := upserted p newID db
  (a, listAttemptResponses a.id (upsertAttemptResponse a.id (upsertLessonAttempt p newID db) r))

variable {db : Db} {newID : UUID} {p : UpsertLessonAttemptParams} {r : UpsertAttemptResponseParams}

/-- The stored row of the response is the only one to its interaction. -/
theorem mem_storedOne {row : LessonAttemptResponse} {kind : String}
    (hMem : (row, kind) ∈ (storedOne db newID p r).2) (hRow : row.interactionId = r.interactionId) :
    row = r.row (upserted p newID db).id := by
  obtain ⟨hRows, hAttempt, -⟩ := mem_listAttemptResponses.1 hMem
  have hFind := Table.mem_rows_iff.1 hRows
  have hKey : row.key = ((upserted p newID db).id, r.interactionId) := Prod.ext hAttempt hRow
  have hOne : ([r].map (·.interactionId)).Nodup := List.nodup_singleton _
  have hStored := find_foldl_upsertAttemptResponse (upserted p newID db).id hOne
    (upsertLessonAttempt p newID db) row.key
  rw [hKey] at hFind hStored
  simp only [List.foldl_cons, List.foldl_nil, if_true, List.find?_cons, decide_true,
    Option.map_some, Option.some_or] at hStored
  exact Option.some.inj (hFind.symm.trans hStored)

theorem storedOne_mem {i : LessonInteraction}
    (hFind : db.lessonInteractions.find r.interactionId = some i) :
    (r.row (upserted p newID db).id, i.kind) ∈ (storedOne db newID p r).2 := by
  refine mem_listAttemptResponses.2 ⟨?_, rfl, i, hFind, rfl⟩
  rw [Table.mem_rows_iff]
  have hOne : ([r].map (·.interactionId)).Nodup := List.nodup_singleton _
  have hStored := find_foldl_upsertAttemptResponse (upserted p newID db).id hOne
    (upsertLessonAttempt p newID db) (r.row (upserted p newID db).id).key
  have hKey : (r.row (upserted p newID db).id).key =
    ((upserted p newID db).id, r.interactionId) := rfl
  rw [hKey] at hStored ⊢
  simpa using hStored

/-- Equal replies tell the same feedback. -/
theorem feedback_eq_of_reply {p' : UpsertLessonAttemptParams} {r' : UpsertAttemptResponseParams}
    {i : LessonInteraction} (hReply : submitReply (.ok (storedOne db newID p r)) =
      submitReply (.ok (storedOne db newID p' r')))
    (hFind : db.lessonInteractions.find r.interactionId = some i)
    (hKind : dbStringToKind i.kind = .fillBlank) (hId : r'.interactionId = r.interactionId) :
    r.feedback = r'.feedback := by
  have hResponses : (storedOne db newID p r).2.filterMap (fun x => buildResponseProto x.1 x.2) =
      (storedOne db newID p' r').2.filterMap fun x => buildResponseProto x.1 x.2 :=
    congrArg LessonAttemptMessage.responses (Except.ok.inj hReply)
  have hMessage : buildResponseProto (r.row (upserted p newID db).id) i.kind =
      some ⟨r.interactionId, r.score, r.maxScore, r.feedback, .fillBlank r.response.answers⟩ := by
    rw [buildResponseProto, hKind]
    rfl
  have hMem : ⟨r.interactionId, r.score, r.maxScore, r.feedback, .fillBlank r.response.answers⟩ ∈
      (storedOne db newID p r).2.filterMap fun x => buildResponseProto x.1 x.2 :=
    List.mem_filterMap.2 ⟨_, storedOne_mem hFind, hMessage⟩
  rw [hResponses] at hMem
  obtain ⟨⟨row, kind⟩, hRow, hBuilt⟩ := List.mem_filterMap.1 hMem
  obtain ⟨response, -, hEq⟩ := Option.map_eq_some_iff.1 hBuilt
  have hInteraction : row.interactionId = r.interactionId :=
    congrArg LessonAttemptResponseMessage.interactionId hEq
  have hFeedback : row.feedback = r.feedback := congrArg LessonAttemptResponseMessage.feedback hEq
  rw [← hFeedback, mem_storedOne hRow (hInteraction.trans hId.symm)]
  rfl

end Reply

section Leak

/-! A submission that answers one blank, of which the reply tells whether it is accepted. -/

variable {fold : Char → Char} {s : InteractionsSvc} {userID lessonID newID : UUID} {α β : Type}

/-- The environment in which statements succeed and FoundationDB fails. -/
def served (newID : UUID) : SiteEnv := { kvFails := true, newID := newID }

/-- The environment in which a statement fails. -/
def refused : SiteEnv := { failure := some (.other "connection refused") }

/-- With the choices `envs`, the part comes from the stores `y` to `a` and the stores `y'`, and
graders give `scores` on the way. -/
def Yields (fold : Char → Char) (x : Handler α) (envs : List SiteEnv) (y : Site) (a : α) (y' : Site)
    (scores : List (UUID × ℚ × ℚ)) : Prop :=
  ∃ h : History, x.run.log (gradingExec fold acceptAll .resolved) envs y = some (.ok a, y', h) ∧
    h.scores = scores

theorem yields_pure (a : α) (y : Site) : Yields fold (pure a : Handler α) [] y a y [] :=
  ⟨[], rfl, rfl⟩

theorem yields_perform {o : Op} {env : SiteEnv} {y y' : Site} {r : o.Resp}
    (h : gradingExec fold acceptAll .resolved env o y = some (r, y')) :
    Yields fold (perform o) [env] y r y' (History.scores [⟨o, r⟩]) := by
  refine ⟨[⟨o, r⟩], ?_, rfl⟩
  show (gradingExec fold acceptAll .resolved env o y).bind _ = _
  rw [h]
  rfl

theorem yields_bind {x : Handler α} {f : α → Handler β} {envs envs' : List SiteEnv}
    {y y' y'' : Site} {a : α} {b : β} {l l' : List (UUID × ℚ × ℚ)}
    (hx : Yields fold x envs y a y' l) (hf : Yields fold (f a) envs' y' b y'' l') :
    Yields fold (x >>= f) (envs ++ envs') y b y'' (l ++ l') := by
  obtain ⟨h, hLog, rfl⟩ := hx
  obtain ⟨h', hLog', rfl⟩ := hf
  exact ⟨h ++ h', Prog.log_exceptT_bind hLog hLog', List.filterMap_append ..⟩

/-- A read leaves the stores as they are. -/
theorem gradingExec_read {env : SiteEnv} {o : Op} {y : Site} {r : o.Resp}
    (ho : o.background = [])
    (h : exec ((env.withGradeText fold acceptAll .resolved y o).toEnv .resolved y o) o y.db =
      some (r, y.db)) :
    gradingExec fold acceptAll .resolved env o y = some (r, y) := by
  unfold gradingExec siteExec
  rw [h]
  simp [ho]

variable (fold userID lessonID) in
theorem requireAttemptLeft_yields (lesson : Lesson) :
    ∃ envs, ∀ y, Yields fold (requireAttemptLeft lesson lessonID userID) envs y () y [] := by
  unfold requireAttemptLeft
  by_cases hMax : 0 < lesson.maxAttempts
  · refine ⟨[refused] ++ [], fun y => ?_⟩
    rw [if_pos hMax]
    exact yields_bind (l := []) (yields_perform (gradingExec_read rfl rfl)) (yields_pure () y)
  · refine ⟨[], fun y => ?_⟩
    rw [if_neg hMax]
    exact yields_pure () y

variable (fold userID lessonID) in
theorem previousAttempt_yields :
    ∃ envs, ∀ y, Yields fold (previousAttempt lessonID userID) envs y none y [] :=
  ⟨[refused] ++ [], fun y =>
    yields_bind (l := []) (yields_perform (gradingExec_read rfl rfl)) (yields_pure none y)⟩

variable (fold s userID) in
theorem watchFraction_yields (lesson : Lesson) (req : SubmitAttemptRequest) :
    ∃ envs fraction, ∀ y, Yields fold (watchFraction s lesson userID req) envs y fraction y [] := by
  unfold watchFraction
  cases s.kv with
  | false => exact ⟨[], _, fun y => yields_pure _ y⟩
  | true =>
    cases lesson.durationSeconds with
    | none => exact ⟨[], _, fun y => yields_pure _ y⟩
    | some durationSeconds =>
      exact ⟨[served 0] ++ [], _, fun y => yields_bind (l := [])
        (yields_perform (gradingExec_read rfl rfl)) (yields_pure _ y)⟩

theorem performAll_yields {os : List Op} (hos : ∀ o ∈ os, ∀ y, ∃ r y',
    gradingExec fold acceptAll .resolved (served 0) o y = some (r, y') ∧ scoreOf ⟨o, r⟩ = none) :
    ∃ envs, ∀ y, ∃ y', Yields fold (performAll os) envs y () y' [] := by
  induction os with
  | nil => exact ⟨[], fun y => ⟨y, yields_pure () y⟩⟩
  | cons o os ih =>
    rw [List.forall_mem_cons] at hos
    obtain ⟨envs, hRest⟩ := ih hos.2
    refine ⟨[served 0] ++ envs, fun y => ?_⟩
    obtain ⟨r, y₁, hExec, hScore⟩ := hos.1 y
    obtain ⟨y₂, hYields⟩ := hRest y₁
    have hFirst := yields_perform hExec
    rw [History.scores, List.filterMap_cons, hScore, List.filterMap_nil] at hFirst
    exact ⟨y₂, yields_bind (l := []) hFirst hYields⟩

variable (fold s userID) in
theorem cleanup_yields (req : SubmitAttemptRequest) :
    ∃ envs, ∀ y, ∃ y', Yields fold (performAll (cleanup s userID req [])) envs y () y' [] := by
  refine performAll_yields (of_mem_cleanup s userID ?_ nofun)
  exact fun interactionID y => ⟨(), _, rfl, rfl⟩

/-- A response that answers the first blank. -/
def oneAnswer (interactionID : UUID) : AttemptResponseInput :=
  ⟨interactionID, 0, 0, .fillBlank ["a"]⟩

/-- Its grade, when the AI model accepts every answer. -/
def oneGrade (fold : Char → Char) (cfg : ConfigJSON) : Grade :=
  textGrade fold acceptAll .resolved .failed .fillBlank cfg (.fillBlank ["a"])

def oneGraded (fold : Char → Char) (interactionID : UUID) (cfg : ConfigJSON) : GradedResponse :=
  ⟨interactionID, .fillBlank ["a"], oneGrade fold cfg⟩

def oneScore (fold : Char → Char) (interactionID : UUID) (cfg : ConfigJSON) :
    List (UUID × ℚ × ℚ) :=
  [(interactionID, (oneGrade fold cfg).score, (oneGrade fold cfg).maxScore)]

variable (fold s userID lessonID) in
theorem cachedGrade_yields (interactionID : UUID) (responseJSON : ResponseJSON) :
    ∃ envs, ∀ y,
      Yields fold (cachedGrade s userID lessonID interactionID responseJSON) envs y none y [] := by
  unfold cachedGrade
  cases s.kv with
  | false => exact ⟨[], fun y => yields_pure none y⟩
  | true => exact ⟨[served 0] ++ [], fun y => yields_bind (l := [])
      (yields_perform (gradingExec_read rfl rfl)) (yields_pure none y)⟩

variable (fold s userID lessonID) in
theorem gradeResponse_yields {interactions : List LessonInteraction} {i : LessonInteraction}
    (hFind : interactions.find? (fun j => j.id = i.id) = some i)
    (hKind : dbStringToKind i.kind = .fillBlank) :
    ∃ envs, ∀ y, Yields fold (gradeResponse s userID lessonID interactions (oneAnswer i.id)) envs y
      (oneGraded fold i.id (y.config i.id)) y (oneScore fold i.id (y.config i.id)) := by
  have hFind' : interactions.find? (fun j => j.id = (oneAnswer i.id).interactionId) = some i :=
    hFind
  unfold gradeResponse
  simp only [hFind', hKind, responseProtoToJSON]
  obtain ⟨envs, hCached⟩ := cachedGrade_yields fold s userID lessonID i.id (.fillBlank ["a"])
  refine ⟨envs ++ ([served 0] ++ []), fun y => yields_bind (hCached y) (yields_bind
    (l := oneScore fold i.id (y.config i.id)) (yields_perform (gradingExec_read rfl ?_))
    (yields_pure _ y))⟩
  simp only [exec, SiteEnv.toEnv, SiteEnv.withGradeText, hKind, if_true]
  rfl

theorem mem_rows_of_listed {db : Db} {limit offset : Nat} {i : LessonInteraction}
    (hi : i ∈ listLessonInteractions lessonID limit offset db) :
    i ∈ db.lessonInteractions.rows := by
  have hSorted := List.mem_of_mem_drop (List.mem_of_mem_take hi)
  exact (List.mem_filter.1 ((List.mem_insertionSort _).1 hSorted)).1

theorem find?_listed {db : Db} {limit offset : Nat} {i : LessonInteraction}
    (hi : i ∈ listLessonInteractions lessonID limit offset db) :
    (listLessonInteractions lessonID limit offset db).find? (fun j => j.id = i.id) = some i := by
  cases hFind : (listLessonInteractions lessonID limit offset db).find? fun j => j.id = i.id with
  | none =>
    have hNone := List.find?_eq_none.1 hFind i hi
    simp at hNone
  | some j =>
    have hId : j.id = i.id := by simpa using List.find?_some hFind
    have hj := mem_rows_of_listed (List.mem_of_find?_eq_some hFind)
    rw [db.lessonInteractions.eq_of_key hj (mem_rows_of_listed hi) hId]

/-- The transaction of one response. -/
theorem upsert_yields (fold : Char → Char) (p : UpsertLessonAttemptParams)
    (r : UpsertAttemptResponseParams) {y : Site} {i : LessonInteraction}
    (hNew : ∀ a ∈ y.db.lessonAttempts.rows, a.id ≠ newID)
    (hFind : y.db.lessonInteractions.find r.interactionId = some i) :
    ∃ y', Yields fold (perform (.upsertAttempt p [r])) [served newID] y
      (.ok (storedOne y.db newID p r)) y' [] := by
  have hUpsert : upsertAttempt p [r] newID y.db = some (.ok (storedOne y.db newID p r),
      upsertAttemptResponse (upserted p newID y.db).id (upsertLessonAttempt p newID y.db) r) := by
    have hFresh : (y.db.lessonAttempts.rows.any fun a => a.id = newID) = false := by
      simpa using hNew
    simp only [upsertAttempt, hFresh, Bool.false_eq_true, if_false, find_upsertLessonAttempt,
      if_true, List.all_cons, hFind, Option.isSome_some, List.all_nil, Bool.and_true]
    rfl
  have hExec : gradingExec fold acceptAll .resolved (served newID) (.upsertAttempt p [r]) y =
      (upsertAttempt p [r] newID y.db).map fun p =>
        (p.1, { y with db := p.2, background := y.background ++ [] }) := rfl
  rw [hUpsert] at hExec
  exact ⟨_, yields_perform hExec⟩

variable (fold userID) in
/-- A submission that answers the first blank of an interaction. -/
theorem submitAttempt_yields {db : Db} {lesson : Lesson} {i : LessonInteraction}
    (hLesson : db.lessons.find lessonID = some lesson)
    (hi : i ∈ listLessonInteractions lessonID s.listLimit 0 db)
    (hKind : dbStringToKind i.kind = .fillBlank) :
    ∃ envs newID, ∀ y : Site, y.db = db → ∃ p y',
      Yields fold (submitAttempt s (.ok userID) ⟨lessonID, [oneAnswer i.id], 0⟩) envs y
        (storedOne db newID p (responseParams [oneAnswer i.id]
          (oneGraded fold i.id (y.config i.id)))) y' (oneScore fold i.id (y.config i.id)) := by
  have hFind := find?_listed hi
  have hFindRow : db.lessonInteractions.find i.id = some i :=
    Table.mem_rows_iff.1 (mem_rows_of_listed hi)
  obtain ⟨newID, hNew⟩ := Infinite.exists_notMem_finset
    (db.lessonAttempts.rows.map LessonAttempt.id).toFinset
  have hFresh : ∀ a ∈ db.lessonAttempts.rows, a.id ≠ newID := fun a ha hEq =>
    hNew (List.mem_toFinset.2 (List.mem_map.2 ⟨a, ha, hEq⟩))
  obtain ⟨limitEnvs, hLimit⟩ := requireAttemptLeft_yields fold userID lessonID lesson
  obtain ⟨gradeEnvs, hGrade⟩ := gradeResponse_yields fold s userID lessonID hFind hKind
  obtain ⟨prevEnvs, hPrev⟩ := previousAttempt_yields fold userID lessonID
  obtain ⟨fractionEnvs, fraction, hFraction⟩ := watchFraction_yields fold s userID lesson
    ⟨lessonID, [oneAnswer i.id], 0⟩
  obtain ⟨cleanupEnvs, hCleanup⟩ := cleanup_yields fold s userID
    ⟨lessonID, [oneAnswer i.id], 0⟩
  refine ⟨[] ++ ([served 0] ++ ([] ++ (limitEnvs ++ ([served 0] ++ ([] ++
    ((gradeEnvs ++ ([] ++ [])) ++ (prevEnvs ++ (fractionEnvs ++ ([served newID] ++ ([] ++
      (cleanupEnvs ++ []))))))))))), newID, ?_⟩
  rintro y rfl
  have hRead : exec (((served 0).withGradeText fold acceptAll .resolved y
      (.getLessonByID lessonID)).toEnv .resolved y (.getLessonByID lessonID))
      (.getLessonByID lessonID) y.db = some (.ok lesson, y.db) := by
    show some (one (y.db.lessons.find lessonID), y.db) = _
    rw [hLesson]
    rfl
  have hNonempty : (listLessonInteractions lessonID s.listLimit 0 y.db).isEmpty = false := by
    rw [List.isEmpty_eq_false_iff]
    exact List.ne_nil_of_mem hi
  have hGraded : Yields fold (gradeResponses s userID lessonID
      (listLessonInteractions lessonID s.listLimit 0 y.db) [oneAnswer i.id])
      (gradeEnvs ++ ([] ++ [])) y [oneGraded fold i.id (y.config i.id)] y
      (oneScore fold i.id (y.config i.id) ++ ([] ++ [])) :=
    yields_bind (hGrade y) (yields_bind (yields_pure [] y) (yields_pure _ y))
  let g := oneGraded fold i.id (y.config i.id)
  let p : UpsertLessonAttemptParams :=
    { lessonId := lessonID
      userId := userID
      totalScore := s.arithmetic.total ([g].map fun g => g.grade.score)
      maxScore := s.arithmetic.total ([g].map fun g => g.grade.maxScore)
      status := "submitted"
      videoWatchFraction := fraction
      shouldIncrement := true }
  obtain ⟨y₁, hUpsert⟩ := upsert_yields fold p (responseParams [oneAnswer i.id] g) hFresh hFindRow
  obtain ⟨y₂, hCleaned⟩ := hCleanup y₁
  refine ⟨p, y₂, yields_bind (yields_pure userID y) (yields_bind (l := []) (yields_perform
    (gradingExec_read rfl hRead)) (yields_bind (yields_pure lesson y) (yields_bind (hLimit y)
    (yields_bind (l := []) (yields_perform (gradingExec_read rfl rfl)) (yields_bind
    (yields_pure (listLessonInteractions lessonID s.listLimit 0 y.db) y) ?_)))))⟩
  simp only [hNonempty, Bool.false_eq_true, if_false]
  exact yields_bind hGraded (yields_bind (hPrev y) (yields_bind (hFraction y) (yields_bind hUpsert
    (yields_bind (yields_pure _ y₁) (yields_bind hCleaned (yields_pure _ y₂))))))

theorem oneGrade_fillBlank (fold : Char → Char) (template : String) (b : Blank)
    (rest : List Blank) :
    oneGrade fold (.fillBlank template (b :: rest)) =
      ⟨1, (rest.length + 1 : Nat), "\n".intercalate (acceptedLine fold b "a" 0 ::
        (List.range' 1 rest.length).map unanswered)⟩ := by
  have hText : trimSpace "a" ≠ "" := by decide +kernel
  have hGrade := fillBlankGradeWithContext_acceptAll fold
    (show (ConfigJSON.fillBlank template (b :: rest)).blanks = b :: rest from rfl) hText
  show (Outcome.settle (fillBlankGradeWithContext fold (some acceptAll) _ _)) = _
  rw [hGrade]
  rfl

/-- The lines of a blank that accepts the answer and of one that does not. -/
theorem acceptedLine_ne (fold : Char → Char) (b : Blank) :
    acceptedLine fold { b with accepted := ["a"] } "a" 0 ≠
      acceptedLine fold { b with accepted := ["aa"] } "a" 0 := by
  have hYes : Blank.accepts fold { b with accepted := ["a"] } "a" = true := by
    simp [Blank.accepts, equalFold]
  have hNo : Blank.accepts fold { b with accepted := ["aa"] } "a" = false := by
    have hTrim : trimSpace "a" = "a" ∧ trimSpace "aa" = "aa" := by decide +kernel
    cases b.caseSensitive <;> simp [Blank.accepts, equalFold, hTrim]
  rw [acceptedLine, if_pos hYes, acceptedLine, if_neg (by rw [hNo]; exact Bool.false_ne_true)]
  decide

end Leak

/-- A submission to the lesson may ask the AI model about a blank. -/
def AsksAboutBlanks (s : InteractionsSvc) (deps : GradingDeps) (x : Site) (lessonID : UUID) :
    Prop :=
  deps = .resolved ∧ (x.db.lessons.find lessonID).isSome ∧
    ∃ i ∈ listLessonInteractions lessonID s.listLimit 0 x.db,
      dbStringToKind i.kind = .fillBlank ∧ (x.config i.id).blanks ≠ []

/-- If the replies hide the answers, then accepting the answer shows in no feedback. -/
theorem feedback_eq_of_hidesAnswers {s : InteractionsSvc} {fold : Char → Char} {x : Site}
    {lessonID : UUID} {lesson : Lesson} {i : LessonInteraction} {template : String} {b : Blank}
    {rest : List Blank} (hHides : HidesAnswers s fold .resolved x lessonID)
    (hMode : x.feedbackMode lessonID = "hidden")
    (hLesson : x.db.lessons.find lessonID = some lesson)
    (hi : i ∈ listLessonInteractions lessonID s.listLimit 0 x.db)
    (hKind : dbStringToKind i.kind = .fillBlank)
    (hConfig : x.config i.id = .fillBlank template (b :: rest)) (accepted : List String) :
    (oneGrade fold (x.config i.id)).feedback =
      (oneGrade fold (.fillBlank template ({ b with accepted := accepted } :: rest))).feedback := by
  let config := Function.update x.config i.id
    (.fillBlank template ({ b with accepted := accepted } :: rest))
  have hSame : ∀ id, (config id).withoutAccepted = (x.config id).withoutAccepted := by
    intro id
    by_cases hId : id = i.id
    · subst hId
      simp [config, hConfig, ConfigJSON.withoutAccepted]
    · simp [config, Function.update_of_ne hId]
  have hUpdated : config i.id = .fillBlank template ({ b with accepted := accepted } :: rest) :=
    Function.update_self ..
  obtain ⟨envs, newID, hYields⟩ := submitAttempt_yields fold 0 hLesson hi hKind
  obtain ⟨p, y, h, hLog, hScores⟩ := hYields x rfl
  obtain ⟨p', y', h', hLog', hScores'⟩ := hYields { x with config := config } rfl
  have hReply := hHides hMode config hSame acceptAll (.ok 0) ⟨lessonID, [oneAnswer i.id], 0⟩ envs
    _ y _ y' h h' rfl hLog hLog' (by
      rw [hScores, hScores']
      simp only [oneScore, hUpdated, hConfig, oneGrade_fillBlank])
  have hRow : x.db.lessonInteractions.find i.id = some i :=
    Table.mem_rows_iff.1 (mem_rows_of_listed hi)
  have hFeedback := feedback_eq_of_reply hReply hRow hKind rfl
  rw [← hUpdated]
  exact hFeedback

/-- In the mode `hidden`, the replies hide the accepted answers of just those lessons of which no
blank comes before the AI model. -/
theorem hidesAnswers_iff {s : InteractionsSvc} {fold : Char → Char} {deps : GradingDeps} {x : Site}
    {lessonID : UUID} :
    HidesAnswers s fold deps x lessonID ↔
      (x.feedbackMode lessonID = "hidden" → ¬ AsksAboutBlanks s deps x lessonID) := by
  constructor
  · rintro hHides hMode ⟨rfl, hLesson, i, hi, hKind, hBlanks⟩
    obtain ⟨lesson, hLesson⟩ := Option.isSome_iff_exists.1 hLesson
    obtain ⟨template, b, rest, hConfig⟩ : ∃ template b rest,
        x.config i.id = .fillBlank template (b :: rest) := by
      cases hCfg : x.config i.id with
      | fillBlank template blanks =>
        rw [hCfg] at hBlanks
        obtain ⟨b, rest, rfl⟩ := List.exists_cons_of_ne_nil hBlanks
        exact ⟨template, b, rest, rfl⟩
      | _ => rw [hCfg] at hBlanks; exact absurd rfl hBlanks
    have hYes := feedback_eq_of_hidesAnswers hHides hMode hLesson hi hKind hConfig ["a"]
    have hNo := feedback_eq_of_hidesAnswers hHides hMode hLesson hi hKind hConfig ["aa"]
    have hSame := hYes.symm.trans hNo
    rw [oneGrade_fillBlank, oneGrade_fillBlank] at hSame
    exact acceptedLine_ne fold b (intercalate_head_inj hSame)
  · intro hNot hMode config hConfig gradeText caller req envs r y r' y' h h' hReq hLog hLog' hScores
    subst hReq
    have hUnanswered : (x.db.lessons.find req.lessonId).isSome →
        ∀ i ∈ listLessonInteractions req.lessonId s.listLimit 0 x.db, ∀ response,
          Responds req i response →
            Unanswered deps (dbStringToKind i.kind) (x.config i.id) response := by
      intro hLesson i hi response _ hDeps hKind j answer hj _
      have hBlanks : (x.config i.id).blanks ≠ [] := List.ne_nil_of_length_pos (by omega)
      exact absurd ⟨hDeps, hLesson, i, hi, hKind, hBlanks⟩ (hNot hMode)
    rw [(submitAttempt_silent hConfig hUnanswered hLog hLog' hScores).1]

/-- A lesson with one blank, whose mode is `hidden`. -/
def blankLesson (accepted : String) : Site where
  db :=
    { lessons := .ofList [⟨1, 0, none⟩]
      lessonInteractions := .ofList [⟨10, 1, "fill_blank", 0⟩]
      lessonAttempts := Table.empty
      lessonAttemptResponses := Table.empty }
  videoStorageKey := fun _ => none
  feedbackMode := fun _ => "hidden"
  config := fun _ =>
    .fillBlank "Pages are kept on a \x7b\x7b0\x7d\x7d." [⟨[accepted], false, ""⟩]
  tempGrades := Table.empty
  coverage := Table.empty
  background := []

/-- The submission of a wrong answer, which the AI model rejects: its reply and its scores. -/
def wrongAnswer (accepted : String) : Option
    (Except Error (LessonAttempt × List (LessonAttemptResponse × String)) × Site × History) :=
  (submitAttempt ⟨false, false, 100, .float32⟩ (.ok 5)
    ⟨1, [⟨10, 0, 0, .fillBlank ["queue"]⟩], 0⟩).run.log
    (gradingExec Char.toLower (fun _ _ _ => ⟨0, "", false⟩) .resolved) (List.replicate 5 {})
    (blankLesson accepted)

def feedbacks (r : Except Error (LessonAttempt × List (LessonAttemptResponse × String))) :
    Option (List String) :=
  (submitReply r).toOption.map fun m => m.responses.map (·.feedback)

/-- The same wrong answer with the same score, and the feedback tells what would have been right. -/
theorem hidden_lesson_suggests_answer :
    ¬ HidesAnswers ⟨false, false, 100, .float32⟩ Char.toLower .resolved (blankLesson "heap") 1 := by
  have hHeap : (wrongAnswer "heap").map (fun out => (feedbacks out.1, History.scores out.2.2)) =
      some (some ["Chỗ trống 1: Không chính xác. Bạn điền: 'queue'. Đáp án đúng gợi ý: 'heap'."],
        [(10, 0, 1)]) := by decide +kernel
  have hStack : (wrongAnswer "stack").map (fun out => (feedbacks out.1, History.scores out.2.2)) =
      some (some ["Chỗ trống 1: Không chính xác. Bạn điền: 'queue'. Đáp án đúng gợi ý: 'stack'."],
        [(10, 0, 1)]) := by decide +kernel
  intro hHides
  obtain ⟨⟨r, y, h⟩, hLog, hOut⟩ := Option.map_eq_some_iff.1 hHeap
  obtain ⟨⟨r', y', h'⟩, hLog', hOut'⟩ := Option.map_eq_some_iff.1 hStack
  rw [Prod.mk.injEq] at hOut hOut'
  have hReply := hHides rfl (blankLesson "stack").config (fun _ => rfl) _ _ _ _ r y r' y' h h' rfl
    hLog hLog' (hOut.2.trans hOut'.2.symm)
  have hFeedbacks : feedbacks r = feedbacks r' := by rw [feedbacks, hReply, feedbacks]
  rw [hOut.1, hOut'.1] at hFeedbacks
  exact absurd hFeedbacks (by decide)

end Richter.Interactions
