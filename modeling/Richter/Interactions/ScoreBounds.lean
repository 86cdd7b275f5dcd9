import Mathlib.Algebra.Order.BigOperators.Group.List
import Mathlib.Tactic.Linarith
import Richter.Interactions.AttemptTotals
import Richter.Interactions.GradeCache
import Richter.Interactions.Graders

/-! The bounds of the scores: of what the graders come to, of what is cached and stored, and of the
totals of the attempts. -/

namespace Richter.Interactions

open Lib
open Lessons (trimSpace)

/-- The score is between zero and the maximum. -/
def Grade.Bounded (g : Grade) : Prop := 0 ≤ g.score ∧ g.score ≤ g.maxScore

def Outcome.Bounded : Outcome → Prop
  | .graded grade => grade.Bounded
  | .failed | .panicked => True

/-- What an AI model returns without an error is a score between 0 and 1, by a maximum that is not
below 1.  The maximum of a text may be missing. -/
structure GradingFunctions.Clamped (deps : GradingFunctions) : Prop where
  gradeAudio : ∀ f ∈ deps.gradeAudio, ∀ audioBytes passageMarkdown question expectedAnswer g,
    f audioBytes passageMarkdown question expectedAnswer = some g → g.failed = false →
      0 ≤ g.score ∧ g.score ≤ 1 ∧ 1 ≤ g.maxScore
  gradeText : ∀ f ∈ deps.gradeText, ∀ i question studentAnswer expectedAnswer g,
    f i question studentAnswer expectedAnswer = some g → g.failed = false →
      0 ≤ g.score ∧ g.score ≤ 1 ∧ (g.maxScore ≤ 0 ∨ 1 ≤ g.maxScore)

section Clamp

theorem clamp01_nonneg (v : ℚ) : 0 ≤ clamp01 v := by
  unfold clamp01
  split
  · exact le_rfl
  · split
    · exact zero_le_one
    · exact not_lt.mp ‹_›

theorem clamp01_le_one (v : ℚ) : clamp01 v ≤ 1 := by
  unfold clamp01
  split
  · exact zero_le_one
  · split
    · exact le_rfl
    · exact not_lt.mp ‹_›

/-- The functions of the AI service are clamped, whatever the engines answer. -/
theorem buildGradingDeps_clamped (engine : GradingEngine) (lang : String) :
    (buildGradingDeps engine lang).Clamped where
  gradeAudio := by
    rintro f ⟨⟩ audioBytes passageMarkdown question expectedAnswer g hCall -
    obtain ⟨reply, -, rfl⟩ := Option.map_eq_some_iff.mp hCall
    cases reply with
    | error e => norm_num
    | ok result =>
      have hLow := clamp01_nonneg result.pronunciationScore
      have hHigh := clamp01_le_one result.pronunciationScore
      have hContentLow := clamp01_nonneg result.contentScore
      have hContentHigh := clamp01_le_one result.contentScore
      dsimp only
      split
      · exact ⟨hLow, hHigh, le_rfl⟩
      · exact ⟨by linarith, by linarith, le_rfl⟩
  gradeText := by
    rintro f ⟨⟩ i question studentAnswer expectedAnswer g hCall -
    obtain ⟨reply, -, rfl⟩ := Option.map_eq_some_iff.mp hCall
    cases reply with
    | error e => norm_num
    | ok result => exact ⟨clamp01_nonneg _, clamp01_le_one _, .inr le_rfl⟩

end Clamp

section Graders

variable {fold : Char → Char} {deps : GradingFunctions} {cfg : ConfigJSON} {resp : ResponseJSON}

theorem bounded_of_le {correct total : Nat} (h : correct ≤ total) (feedback : String) :
    Grade.Bounded ⟨correct, total, feedback⟩ := ⟨Nat.cast_nonneg _, Nat.cast_le.mpr h⟩

theorem singleChoiceGrade_bounded : (singleChoiceGrade cfg resp).Bounded := by
  unfold singleChoiceGrade Grade.Bounded
  dsimp only
  split <;> norm_num

theorem multipleChoiceGrade_bounded : (multipleChoiceGrade cfg resp).Bounded := by
  unfold multipleChoiceGrade Grade.Bounded
  dsimp only
  split
  · norm_num
  · split <;> norm_num

theorem gradeMcqList_le (configs : List NestedMcqConfigJSON) (answers : List Int) :
    (gradeMcqList configs answers).1 ≤ (gradeMcqList configs answers).2 := by
  have hCount := List.countP_le_length (p := fun (q : NestedMcqConfigJSON × Nat) =>
    decide (answers[q.2]? = some (toInt32 q.1.correctAnswer))) (l := configs.zipIdx)
  rwa [List.length_zipIdx] at hCount

theorem listeningGrade_bounded : (listeningGrade cfg resp).Bounded :=
  bounded_of_le (gradeMcqList_le ..) _

theorem listeningGradeWithContext_bounded : (listeningGradeWithContext cfg resp).Bounded :=
  bounded_of_le (gradeMcqList_le ..) _

theorem fillBlankGrade_bounded : (fillBlankGrade fold cfg resp).Bounded := by
  refine bounded_of_le ?_ _
  have hCount := List.countP_le_length (p := fun (q : Blank × Nat) =>
    (resp.answers[q.2]?).any (q.1.accepts fold)) (l := cfg.blanks.zipIdx)
  rwa [List.length_zipIdx] at hCount

/-- However the AI model grades, at most every blank counts. -/
theorem fillBlankGradeWithDeps_bounded : (fillBlankGradeWithDeps fold deps cfg resp).Bounded := by
  simp only [fillBlankGradeWithDeps]
  split
  · trivial
  · next rounds hRounds =>
    refine bounded_of_le ?_ _
    have hLength := length_of_mapM_eq_some hRounds
    rw [List.length_zipIdx] at hLength
    exact hLength ▸ List.countP_le_length

theorem readingGrade_bounded : (readingGrade resp).Bounded := by
  unfold readingGrade Grade.Bounded
  split <;> norm_num

theorem writingGrade_bounded : (writingGrade resp).Bounded := by
  unfold writingGrade Grade.Bounded
  split <;> norm_num

theorem zero_bounded (feedback : String) : Grade.Bounded ⟨0, 1, feedback⟩ := by
  norm_num [Grade.Bounded]

theorem half_bounded (feedback : String) : Grade.Bounded ⟨1 / 2, 1, feedback⟩ := by
  norm_num [Grade.Bounded]

theorem readingGradeWithContext_bounded (h : deps.Clamped) :
    (readingGradeWithContext deps cfg resp).Bounded := by
  unfold readingGradeWithContext
  split
  · exact zero_bounded _
  · split
    · trivial
    · exact half_bounded _
    · next audioBytes _ =>
      split
      · trivial
      · next g hCall =>
        obtain ⟨f, hf, hGraded⟩ := Option.bind_eq_some_iff.mp hCall
        cases hFailed : g.failed with
        | true => trivial
        | false =>
          obtain ⟨hLow, hHigh, hMax⟩ := h.gradeAudio f hf _ _ _ _ g hGraded hFailed
          exact ⟨hLow, hHigh.trans hMax⟩

theorem writingGradeWithContext_bounded (h : deps.Clamped) :
    (writingGradeWithContext deps cfg resp).Bounded := by
  simp only [writingGradeWithContext]
  split
  · exact zero_bounded _
  · split
    · exact zero_bounded _
    · split
      · exact half_bounded _
      · next f hf =>
        split
        · trivial
        · next g hCall =>
          cases hFailed : g.failed with
          | true => exact half_bounded _
          | false =>
            obtain ⟨hLow, hHigh, hMax⟩ := h.gradeText f hf _ _ _ _ g hCall hFailed
            refine ⟨hLow, ?_⟩
            dsimp only
            split
            · exact hHigh
            · next hPos => exact hHigh.trans (hMax.resolve_left hPos)

theorem askedOutcome_bounded (h : deps.Clamped) (withContext : Bool) (kind : InteractionKind) :
    (askedOutcome fold withContext deps kind cfg resp).Bounded := by
  cases kind <;> cases withContext
  case fillBlank.false => exact fillBlankGrade_bounded
  case fillBlank.true => exact fillBlankGradeWithDeps_bounded
  case reading.false => exact readingGrade_bounded
  case reading.true => exact readingGradeWithContext_bounded h
  case writing.false => exact writingGrade_bounded
  case writing.true => exact writingGradeWithContext_bounded h
  all_goals trivial

variable {outcome : Outcome} (hOutcome : outcome.Bounded)

include hOutcome

theorem handlerGrade_bounded (withContext : Bool) (kind : InteractionKind) (cfg : ConfigJSON)
    (resp : ResponseJSON) : (handlerGrade withContext outcome kind cfg resp).Bounded := by
  cases kind with
  | singleChoice => exact singleChoiceGrade_bounded
  | multipleChoice => exact multipleChoiceGrade_bounded
  | listening =>
    cases withContext with
    | false => exact listeningGrade_bounded
    | true => exact listeningGradeWithContext_bounded
  | _ => exact hOutcome

/-- So is what becomes of a grader that fails. -/
theorem settle_bounded : outcome.settle.Bounded := by
  cases outcome with
  | graded grade => exact hOutcome
  | failed => exact zero_bounded _
  | panicked => exact zero_bounded _

theorem submitGrade_bounded (deps : GradingDeps) (kind : InteractionKind) :
    (submitGrade deps outcome kind cfg resp).Bounded := by
  unfold submitGrade
  split
  · cases deps with
    | unset => exact settle_bounded (handlerGrade_bounded hOutcome false kind cfg resp)
    | unresolved => exact zero_bounded _
    | resolved => exact settle_bounded (handlerGrade_bounded hOutcome true kind cfg resp)
  · exact settle_bounded (handlerGrade_bounded hOutcome false kind cfg resp)

theorem gradeSingleResponse_bounded {deps : GradingDeps} {kind : InteractionKind} {grade : Grade}
    (h : gradeSingleResponse deps outcome kind cfg resp = some grade) : grade.Bounded := by
  have hResult : ∀ withContext, (match handlerGrade withContext outcome kind cfg resp with
      | .graded grade => some grade
      | .failed | .panicked => none) = some grade → grade.Bounded := by
    intro withContext hSome
    have hGrade := handlerGrade_bounded hOutcome withContext kind cfg resp
    cases hHandler : handlerGrade withContext outcome kind cfg resp with
    | graded g =>
      rw [hHandler] at hSome hGrade
      cases hSome
      exact hGrade
    | failed => rw [hHandler] at hSome; cases hSome
    | panicked => rw [hHandler] at hSome; cases hSome
  unfold gradeSingleResponse at h
  dsimp only at h
  split at h
  · cases deps with
    | unset => exact hResult false h
    | unresolved => cases h
    | resolved => exact hResult true h
  · exact hResult false h

end Graders

/-- A grader of the environment has come to what a handler comes to with clamped functions. -/
def SiteEnv.Clamped (fold : Char → Char) (env : SiteEnv) : Prop :=
  ∃ deps : GradingFunctions, deps.Clamped ∧ ∃ withContext kind cfg resp,
    env.outcome = askedOutcome fold withContext deps kind cfg resp

theorem SiteEnv.Clamped.outcome_bounded {fold : Char → Char} {env : SiteEnv}
    (h : env.Clamped fold) : env.outcome.Bounded := by
  obtain ⟨deps, hDeps, withContext, kind, cfg, resp, hOutcome⟩ := h
  rw [hOutcome]
  exact askedOutcome_bounded hDeps withContext kind

/-- The graders of a call are those of the handlers, with clamped functions. -/
def gradesClamped (fold : Char → Char) (_ : Session) : Action → Prop
  | .submitAttempt _ envs _ _ => ∀ env ∈ envs, env.Clamped fold
  | .previewGrade _ env .. | .saveAttemptResponse _ env .. => env.Clamped fold
  | _ => True

/-- The scores that are cached, those that the last submission has stored, and the totals of the
attempts are bounded. -/
structure ScoresBounded (x : Session) : Prop where
  cached : ∀ t ∈ x.site.tempGrades.rows, t.cache.grade.Bounded
  stored : ∀ stored ∈ x.last.stored, ∀ r ∈ stored.2.1, r.grade.Bounded
  totals : ∀ a ∈ x.site.db.lessonAttempts.rows, 0 ≤ a.totalScore ∧ a.totalScore ≤ a.maxScore

theorem Arithmetic.round_zero (a : Arithmetic) : a.round 0 = 0 := by
  cases a with
  | exact => rfl
  | float32 => exact roundBinary_zero

theorem Arithmetic.round_mono (a : Arithmetic) {x y : ℚ} (hx : 0 ≤ x) (h : x ≤ y) :
    a.round x ≤ a.round y := by
  cases a with
  | exact => exact h
  | float32 => exact roundBinary_mono hx h

/-- The totals of bounded scores, after each of them. -/
theorem totals_bounded_from (a : Arithmetic) {rs : List UpsertAttemptResponseParams} {x y : ℚ}
    (hx : 0 ≤ x) (hxy : x ≤ y) (h : ∀ r ∈ rs, r.grade.Bounded) :
    0 ≤ (rs.map (·.score)).foldl (fun total score => a.round (total + score)) x ∧
      (rs.map (·.score)).foldl (fun total score => a.round (total + score)) x ≤
        (rs.map (·.maxScore)).foldl (fun total score => a.round (total + score)) y := by
  induction rs generalizing x y with
  | nil => exact ⟨hx, hxy⟩
  | cons r rs ih =>
    obtain ⟨hScore, hMax⟩ := h r List.mem_cons_self
    have hSum : 0 ≤ x + r.score := add_nonneg hx hScore
    have hRound : 0 ≤ a.round (x + r.score) := by
      rw [← a.round_zero]
      exact a.round_mono (le_refl 0) hSum
    exact ih hRound (a.round_mono hSum (add_le_add hxy hMax))
      fun r' hr' => h r' (List.mem_cons_of_mem _ hr')

/-- The totals of bounded scores. -/
theorem totals_bounded (a : Arithmetic) {rs : List UpsertAttemptResponseParams}
    (h : ∀ r ∈ rs, r.grade.Bounded) :
    0 ≤ a.total (rs.map (·.score)) ∧ a.total (rs.map (·.score)) ≤ a.total (rs.map (·.maxScore)) :=
  totals_bounded_from a (le_refl 0) (le_refl 0) h

section Attempts

variable {deps : GradingDeps} {env : SiteEnv} {x x' : Site} {h : History} {b : LessonAttempt}

/-- An attempt after an operation was there before, or it has the totals of a transaction. -/
theorem attempt_of_siteExec {o : Op} {r : o.Resp} (hExec : siteExec deps env o x = some (r, x'))
    (hb : b ∈ x'.db.lessonAttempts.rows) :
    b ∈ x.db.lessonAttempts.rows ∨ ∃ p rs out,
      (⟨o, r⟩ : Prog.Event Op Op.Resp) = ⟨.upsertAttempt p rs, .ok out⟩ ∧
        b.totalScore = p.totalScore ∧ b.maxScore = p.maxScore := by
  by_cases ho : o.isUpsert = false
  · rw [siteExec_db ho hExec] at hb
    exact .inl hb
  · cases o with
    | upsertAttempt p rs =>
      cases r with
      | error e =>
        obtain ⟨db, hDb, rfl⟩ := siteExec_cases hExec
        rw [exec_upsert_error hDb] at hb
        exact .inl hb
      | ok out =>
        obtain ⟨-, hDb⟩ := siteExec_upsert hExec
        rw [hDb, foldl_upsertAttemptResponse_lessonAttempts, Table.mem_rows_iff,
          find_upsertLessonAttempt] at hb
        split at hb
        · rw [← Option.some_inj.mp hb]
          exact .inr ⟨p, rs, out, rfl, upserted_totals p env.newID x.db⟩
        · exact .inl (Table.mem_rows_iff.mpr hb)
    | _ => exact absurd rfl ho

theorem trace_attempts (hTrace : Prog.Trace (siteExec deps) x h x')
    (hb : b ∈ x'.db.lessonAttempts.rows) :
    b ∈ x.db.lessonAttempts.rows ∨ ∃ p rs out, h.Has (.upsertAttempt p rs) (.ok out) ∧
      b.totalScore = p.totalScore ∧ b.maxScore = p.maxScore := by
  refine Prog.Trace.invariant (A := (· ∈ h)) (I := fun y => ∀ b ∈ y.db.lessonAttempts.rows,
    b ∈ x.db.lessonAttempts.rows ∨ ∃ p rs out, h.Has (.upsertAttempt p rs) (.ok out) ∧
      b.totalScore = p.totalScore ∧ b.maxScore = p.maxScore) ?_ hTrace (fun _ => id)
    (fun _ => .inl) b hb
  intro w o r u v hEvent hExec hOld b hb
  rcases attempt_of_siteExec hExec hb with hb | ⟨p, rs, out, hEq, hTotals⟩
  · exact hOld b hb
  · rw [hEq] at hEvent
    exact .inr ⟨p, rs, out, hEvent, hTotals⟩

end Attempts

section Step

variable {fold : Char → Char} {s : InteractionsSvc} {cfg : AIConfig} {x x' : Session}

/-- What a submission performs it has prepared, and it is answered by one of the environment's
choices. -/
theorem step_event {deps : GradingDeps} {envs : List SiteEnv} {caller : Except Error UUID}
    {req : SubmitAttemptRequest} {e : Prog.Event Op Op.Resp}
    (h : (session s cfg).step x (.submitAttempt deps envs caller req) = some x')
    (he : e ∈ x'.last) :
    ∃ before, Submits s caller req before e.op ∧
      ∃ env ∈ envs, ∃ u v, siteExec deps env e.op u = some (e.resp, v) := by
  obtain ⟨⟨result, site, last⟩, hLog, rfl⟩ := Option.map_eq_some_iff.mp h
  exact Prog.Along.event_of_log (submitAttempt_submits s caller req) hLog he

/-- The rows that a submission stores have cached scores or new ones. -/
theorem step_stored_bounded {deps : GradingDeps} {envs : List SiteEnv}
    {caller : Except Error UUID} {req : SubmitAttemptRequest}
    (hGuard : ∀ env ∈ envs, env.Clamped fold)
    (h : (session s cfg).step x (.submitAttempt deps envs caller req) = some x')
    (hCached : ∀ t ∈ x.site.tempGrades.rows, t.cache.grade.Bounded)
    {p : UpsertLessonAttemptParams} {rs : List UpsertAttemptResponseParams}
    {out : LessonAttempt × List (LessonAttemptResponse × String)}
    (hHas : x'.last.Has (.upsertAttempt p rs) (.ok out)) : ∀ r ∈ rs, r.grade.Bounded := by
  intro r hr
  obtain ⟨hTrace, -, -, hResult⟩ := step_submitAttempt h
  rcases hResult with ⟨userID, out', -, hSubmitted⟩ | hAborted
  · obtain ⟨rfl, -⟩ := hSubmitted.stored hHas
    obtain ⟨resp, -, i, -, -, -, -, hSource⟩ := stored_row hTrace hSubmitted hHas hr
    rcases hSource with hTempGrade | ⟨hGrades, -⟩
    · obtain ⟨t, ht, hCache⟩ := Option.map_eq_some_iff.mp hTempGrade
      have hBounded := hCached t (Table.find_eq_some_iff.mp ht).1
      rw [hCache] at hBounded
      exact hBounded
    · obtain ⟨e, he, hEq⟩ := List.mem_filterMap.mp hGrades
      split at hEq
      · next j response g =>
        obtain ⟨-, -, env, hEnv, u, v, hExec⟩ := step_event h he
        obtain ⟨db, hDb, -⟩ := siteExec_cases hExec
        simp only [exec, SiteEnv.toEnv, Option.some.injEq, Prod.mk.injEq] at hDb hEq
        rw [← hEq.2.2, ← hDb.1]
        exact submitGrade_bounded (hGuard env hEnv).outcome_bounded deps _
      · cases hEq
  · exact absurd hHas (hAborted.notStored p rs out)

/-- The grades that are cached after a call were so before, or they are its own. -/
theorem mem_cacheGrade {y : Site} {kvFails : Bool} {userID lessonID : UUID}
    {target : SingleGradeTarget} {g : Grade} {t : TempGrade}
    (ht : t ∈ (y.cacheGrade s kvFails userID lessonID target g).tempGrades.rows) :
    t ∈ y.tempGrades.rows ∨ t.cache.grade = g := by
  unfold Site.cacheGrade at ht
  dsimp only at ht
  split at ht
  · rw [Table.mem_rows_iff, Table.find_upsert] at ht
    split at ht
    · rw [← Option.some_inj.mp ht]
      refine .inr ?_
      cases y.tempGrades.find t.key <;> rfl
    · exact .inl (Table.mem_rows_iff.mpr ht)
  · exact .inl ht

/-- What every step keeps of the cached grades and the attempts. -/
theorem step_kept_bounded {a : Action} (hGuard : gradesClamped fold x a)
    (h : (session s cfg).step x a = some x') (hI : ScoresBounded x) :
    (∀ t ∈ x'.site.tempGrades.rows, t.cache.grade.Bounded) ∧
      ∀ b ∈ x'.site.db.lessonAttempts.rows, 0 ≤ b.totalScore ∧ b.totalScore ≤ b.maxScore := by
  cases called_of_step h with
  | submitted hTrace =>
    rw [(trace_kept hTrace).tempGrades]
    refine ⟨hI.cached, fun b hb => ?_⟩
    rcases trace_attempts hTrace hb with hb | ⟨p, rs, out, hHas, hScore, hMax⟩
    · exact hI.totals b hb
    · obtain ⟨before, hSubmits, -⟩ := step_event h hHas
      have hTotals := totals_bounded s.arithmetic (step_stored_bounded hGuard h hI.cached hHas)
      rwa [← hSubmits.1.totalScore, ← hSubmits.1.maxScore, ← hScore, ← hMax] at hTotals
  | kept hSite =>
    rw [hSite]
    exact ⟨hI.cached, hI.totals⟩
  | previewed hTarget hGrade hSite =>
    rw [hSite, cacheGrade_db]
    refine ⟨fun t ht => ?_, hI.totals⟩
    rcases mem_cacheGrade ht with ht | rfl
    · exact hI.cached t ht
    · exact gradeSingleResponse_bounded hGuard.outcome_bounded hGrade
  | @saved deps env _ _ _ _ _ target _ hTarget hSite =>
    rw [hSite, cacheGrade_db]
    refine ⟨fun t ht => ?_, hI.totals⟩
    rcases mem_cacheGrade ht with ht | hOwn
    · exact hI.cached t ht
    · rw [hOwn]
      cases hGrade : x.site.gradeTarget deps env target with
      | some g => exact gradeSingleResponse_bounded hGuard.outcome_bounded hGrade
      | none => exact half_bounded _
  | updated hCall =>
    obtain ⟨_, _, _, -, hSite, -⟩ := Site.updateInteraction_cases hCall
    rw [hSite]
    exact ⟨hI.cached, hI.totals⟩
  | created hCall =>
    obtain ⟨-, _, _, -, hSite, -⟩ := Site.createManualInteraction_cases hCall
    rw [hSite]
    exact ⟨hI.cached, hI.totals⟩
  | reported hSite =>
    rcases hSite with hSite | ⟨durationSec, hSite⟩
    · rw [hSite]
      exact ⟨hI.cached, hI.totals⟩
    · rw [hSite, Site.addWatchCoverage]
      split <;> exact ⟨hI.cached, hI.totals⟩
  | videoSet hSite hNarrows =>
    rw [hSite]
    exact ⟨hI.cached, fun b hb => hI.totals b (hNarrows.attempts b hb)⟩
  | deleted hSite hFewer =>
    rw [hSite]
    exact ⟨fun t ht => hI.cached t
      (Table.mem_rows_iff.mpr (hFewer _ _ (Table.mem_rows_iff.mp ht))), hI.totals⟩

theorem step_scoresBounded {a : Action} (hGuard : gradesClamped fold x a)
    (h : (session s cfg).step x a = some x') (hI : ScoresBounded x) : ScoresBounded x' := by
  obtain ⟨hCached, hTotals⟩ := step_kept_bounded hGuard h hI
  refine ⟨hCached, ?_, hTotals⟩
  by_cases ha : ∃ deps envs caller req, a = .submitAttempt deps envs caller req
  · obtain ⟨deps, envs, caller, req, rfl⟩ := ha
    rintro ⟨p, rs, b⟩ hStored
    obtain ⟨out, hHas, -⟩ := has_of_mem_stored hStored
    exact step_stored_bounded hGuard h hI.cached hHas
  · have hLast : x'.last = [] := last_of_step h fun deps envs caller req hEq =>
      ha ⟨deps, envs, caller, req, hEq⟩
    rw [hLast]
    exact List.forall_mem_nil _

end Step

/-- With clamped functions, a grade that a `Grade` or a `GradeWithContext` gives is between zero and
its maximum, and so are, in every run from stores where they are, the scores that are cached or
stored and the totals of every attempt. -/
theorem scores_bounded (fold : Char → Char) :
    (∀ deps : GradingFunctions, deps.Clamped → ∀ withContext kind cfg resp,
      (handlerGrade withContext (askedOutcome fold withContext deps kind cfg resp) kind cfg
        resp).Bounded) ∧
    ∀ (s : InteractionsSvc) (cfg : AIConfig) (site : Site) (steps : List Action) (x : Session),
      ScoresBounded (.start site) →
      (session s cfg).Runs (gradesClamped fold) (.start site) steps x → ScoresBounded x :=
  ⟨fun _ hDeps withContext kind cfg resp =>
      handlerGrade_bounded (askedOutcome_bounded hDeps withContext kind) withContext kind cfg resp,
    fun _ _ _ _ _ hStart hRun =>
      hRun.invariant (fun _ _ _ hGuard h hI => step_scoresBounded hGuard h hI) hStart⟩

/-- Engines of which one praises every text beyond the maximum, and the others fail. -/
def generousEngine : GradingEngine where
  audio := fun _ _ _ _ _ => some (.error "timeout")
  text := fun _ _ _ _ _ => some (.ok (7 / 5, "good"))
  downloadAudio := fun _ => none

theorem scores_bounded_essay : ∃ x,
    (session cacheSvc cacheCfg).run (.start essayLesson)
      [saveEssay (askedOutcome Char.toLower true (buildGradingDeps generousEngine "vi") .writing
        (.writing "a prompt" "" "" 0) (.writing "an essay")),
        submitCached (.writing "an essay")] = some x ∧ ScoresBounded x ∧
    (handlerGrade true (askedOutcome Char.toLower true (buildGradingDeps generousEngine "vi")
      .reading (.reading "pronunciation" "a passage" "" "") (.reading "key")) .reading
      (.reading "pronunciation" "a passage" "" "") (.reading "key")).Bounded := by
  have hEngine := buildGradingDeps_clamped generousEngine "vi"
  have hSome : ((session cacheSvc cacheCfg).run (.start essayLesson)
      [saveEssay (askedOutcome Char.toLower true (buildGradingDeps generousEngine "vi") .writing
        (.writing "a prompt" "" "" 0) (.writing "an essay")),
        submitCached (.writing "an essay")]).isSome = true := by decide +kernel
  obtain ⟨x, hx⟩ := Option.isSome_iff_exists.mp hSome
  obtain ⟨y, hSave, hRest⟩ := Machine.run_cons.mp hx
  obtain ⟨z, hSubmit, hEnd⟩ := Machine.run_cons.mp hRest
  cases hEnd
  have hStart : ScoresBounded (.start essayLesson) :=
    ⟨List.forall_mem_nil _, List.forall_mem_nil _, List.forall_mem_nil _⟩
  have hGraded : gradesClamped Char.toLower (.start essayLesson) (saveEssay (askedOutcome
      Char.toLower true (buildGradingDeps generousEngine "vi") .writing
      (.writing "a prompt" "" "" 0) (.writing "an essay"))) :=
    ⟨_, hEngine, true, .writing, .writing "a prompt" "" "" 0, .writing "an essay", rfl⟩
  have hFailed : gradesClamped Char.toLower y (submitCached (.writing "an essay")) := by
    intro env hEnv
    rw [List.eq_of_mem_replicate hEnv]
    exact ⟨_, hEngine, false, .unspecified, .writing "" "" "" 0, .writing "", rfl⟩
  exact ⟨x, hx, (scores_bounded Char.toLower).2 _ _ _ _ x hStart
    (.cons hGraded hSave (.cons hFailed hSubmit (.nil x))),
    (scores_bounded Char.toLower).1 _ hEngine true _ _ _⟩

end Richter.Interactions
