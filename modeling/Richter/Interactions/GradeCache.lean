import Richter.Interactions.Session

/-! The cached grades between the calls that grade one response and the submissions that take them.
A cached grade goes by the text of the response only, so it outlives the configuration that it was
given by, and the provisional credit of a response that could not be graded is cached like any
grade. -/

namespace Richter.Interactions

open Lib

namespace Site

/-- The response that an input stores, by the current kind of its interaction. -/
def responseJSON (x : Site) (input : AttemptResponseInput) : Option ResponseJSON :=
  (x.db.lessonInteractions.find input.interactionId).bind fun i =>
    (responseProtoToJSON (dbStringToKind i.kind)).bind fun toJSON =>
      (toJSON input.response).toOption

/-- What the handler of the interaction's current kind gives to a response by the current
configuration, without an AI model. -/
def currentScore (x : Site) (interactionID : UUID) (response : ResponseJSON) : Option (ℚ × ℚ) :=
  (x.db.lessonInteractions.find interactionID).bind fun i =>
    handlerScore (dbStringToKind i.kind) (x.config i.id) response

def isListening (x : Site) (interactionID : UUID) : Bool :=
  (x.db.lessonInteractions.find interactionID).any fun i => dbStringToKind i.kind = .listening

/-- The response is cached with the provisional credit. -/
def pendingCached (x : Site) (userID lessonID interactionID : UUID) (response : ResponseJSON) :
    Bool :=
  x.tempGrade userID lessonID interactionID = some ⟨goLayout.text response, pendingGrade⟩

end Site

def UpsertAttemptResponseParams.grade (r : UpsertAttemptResponseParams) : Grade :=
  ⟨r.score, r.maxScore, r.feedback⟩

section Row

variable {s : InteractionsSvc} {deps : GradingDeps} {x x' : Site} {h : History} {userID : UUID}
  {req : SubmitAttemptRequest} {out : LessonAttempt × List (LessonAttemptResponse × String)}
  {p : UpsertLessonAttemptParams} {rs : List UpsertAttemptResponseParams}
  {r : UpsertAttemptResponseParams}

/-- A row that a submission has stored is the response of an input, with the cached grade of this
very response or with a new one. -/
theorem stored_row (hTrace : Prog.Trace (siteExec deps) x h x')
    (hSubmitted : Submitted s userID req out h) (hHas : h.Has (.upsertAttempt p rs) (.ok out))
    (hr : r ∈ rs) :
    ∃ resp ∈ req.responses, ∃ i, resp.interactionId = r.interactionId ∧
      x.db.lessonInteractions.find r.interactionId = some i ∧
      x.responseJSON resp = some r.response ∧ r.response.kind = dbStringToKind i.kind ∧
      (x.tempGrade userID req.lessonId r.interactionId =
        some ⟨goLayout.text r.response, r.grade⟩ ∨
      ((r.interactionId, r.response, r.grade) ∈ h.grades ∧ ∃ outcome, r.grade =
        submitGrade deps outcome (dbStringToKind i.kind) (x.config i.id) r.response)) := by
  obtain ⟨-, -, -, interactions, hList, hRows⟩ := hSubmitted.stored hHas
  obtain ⟨resp, hResp, g, i, hi, rfl⟩ := hRows r hr
  have hListed := trace_listed hTrace hList
  obtain ⟨toJSON, hKind, hJSON⟩ := hi.responseJSON
  have hFind : x.db.lessonInteractions.find i.id = some i := by
    have hMem := hi.mem
    rw [hListed, listLessonInteractions] at hMem
    have hRow := (List.mem_filter.mp ((List.mem_insertionSort _).mp
      (List.mem_of_mem_drop (List.mem_of_mem_take hMem)))).1
    exact Table.mem_rows_iff.mp hRow
  have hId : (responseParams req.responses g).interactionId = i.id :=
    hi.interactionID.trans hi.id.symm
  refine ⟨resp, hResp, i, hi.interactionID.symm, hId ▸ hFind, ?_,
    kind_of_responseProtoToJSON hKind hJSON, ?_⟩
  · rw [Site.responseJSON, ← hi.id, hFind, Option.bind_some, hKind, Option.bind_some, hJSON]
    rfl
  · rcases hi.source with hCached | hGraded
    · rw [← hId] at hCached
      exact .inl (trace_tempGrade hTrace hCached)
    · refine .inr ⟨?_, trace_grade hTrace hGraded⟩
      have hMem := mem_grades_of_has hGraded
      rwa [← hId] at hMem

end Row

/-! Provisional credits. -/

/-- A response that got the provisional credit is graded again when it is stored, or it is stored
with a grade that a later call has given it. -/
def PendingRegraded (x : Session) : Prop :=
  ∀ stored ∈ x.last.stored, ∀ r ∈ stored.2.1,
    ⟨stored.1.userId, stored.1.lessonId, r.interactionId, r.response⟩ ∈ x.provisional →
      (r.interactionId, r.response, r.grade) ∈ x.last.grades ∨ r.grade ≠ pendingGrade

instance (x : Session) : Decidable (PendingRegraded x) := by
  unfold PendingRegraded; infer_instance

/-- No response of a submission is still cached with its provisional credit. -/
def submitsWithoutPending (x : Session) : Action → Bool
  | .submitAttempt _ _ (.ok userID) req =>
      req.responses.all fun resp => (x.site.responseJSON resp).all fun r =>
        ⟨userID, req.lessonId, resp.interactionId, r⟩ ∉ x.provisional ||
          !x.site.pendingCached userID req.lessonId resp.interactionId r
  | _ => true

theorem step_pendingRegraded {s : InteractionsSvc} {cfg : AIConfig} {x x' : Session} {a : Action}
    (hGuard : submitsWithoutPending x a = true) (h : (session s cfg).step x a = some x') :
    PendingRegraded x' := by
  by_cases ha : ∃ deps envs caller req, a = .submitAttempt deps envs caller req
  · obtain ⟨deps, envs, caller, req, rfl⟩ := ha
    obtain ⟨hTrace, -, hProvisional, hResult⟩ := step_submitAttempt h
    rintro ⟨p, rs, a⟩ hStored r hr hPending
    obtain ⟨out, hHas, -⟩ := has_of_mem_stored hStored
    rcases hResult with ⟨userID, out', rfl, hSubmitted⟩ | hNot
    · obtain ⟨rfl, hUser, hLesson, -⟩ := hSubmitted.stored hHas
      obtain ⟨resp, hResp, i, hId, -, hJSON, -, hSource⟩ := stored_row hTrace hSubmitted hHas hr
      rcases hSource with hCached | ⟨hGraded, -⟩
      · refine .inr fun hGrade => ?_
        have hInput := List.all_eq_true.mp hGuard resp hResp
        simp only [hJSON, Option.all_some, hId, Bool.or_eq_true, decide_eq_true_eq,
          Bool.not_eq_true', Site.pendingCached, decide_eq_false_iff_not] at hInput
        rw [hProvisional] at hPending
        dsimp only at hPending
        rw [hUser, hLesson] at hPending
        rcases hInput with hNever | hNotCached
        · exact hNever hPending
        · exact hNotCached (hGrade ▸ hCached)
      · exact .inl hGraded
    · exact absurd hHas (hNot.notStored p rs out)
  · have hLast : x'.last = [] := last_of_step h fun deps envs caller req hEq =>
      ha ⟨deps, envs, caller, req, hEq⟩
    rw [PendingRegraded, hLast]
    exact List.forall_mem_nil _

/-- In every run in which no submitted response is still cached with its provisional credit, no
provisional credit is stored in place of a grade. -/
theorem pending_regraded {s : InteractionsSvc} {cfg : AIConfig} {site : Site}
    {steps : List Action} {x : Session}
    (hRun : (session s cfg).Runs (fun x a => submitsWithoutPending x a = true) (.start site)
      steps x) : PendingRegraded x :=
  hRun.invariant (fun _ _ _ hGuard h _ => step_pendingRegraded hGuard h)
    (List.forall_mem_nil _)

/-- A lesson with an essay to write. -/
def essayLesson : Site where
  db :=
    { lessons := .ofList [⟨1, 0, none⟩]
      lessonInteractions := .ofList [⟨10, 1, "writing", 0⟩]
      lessonAttempts := .empty
      lessonAttemptResponses := .empty }
  videoStorageKey := fun _ => none
  feedbackMode := fun _ => "after_each"
  config := fun _ => .writing "a prompt" "" "" 0
  tempGrades := .empty
  coverage := .empty
  background := []

/-- A service with a FoundationDB store. -/
def cacheSvc : InteractionsSvc := ⟨true, false, 500, .float32⟩

def cacheCfg : AIConfig := ⟨1, 30⟩

def saveEssay (outcome : Outcome) : Action :=
  .saveAttemptResponse .resolved { outcome := outcome } (.ok 100) (.ok ()) 1
    (some ⟨10, 0, 0, .writing "an essay"⟩)

/-- The student submits an answer whose grade is cached.  The events are the two reads of the
lesson, those of the cached grade and of the previous attempt, the transaction and a deletion. -/
def submitCached (answer : Answer) : Action :=
  .submitAttempt .resolved (List.replicate 6 {}) (.ok 100) ⟨1, [⟨10, 0, 0, answer⟩], -1⟩

theorem pending_regraded_savedAgain : ∃ x,
    (session cacheSvc cacheCfg).run (.start essayLesson) [saveEssay .failed,
      saveEssay (.graded ⟨1, 1, "good"⟩), submitCached (.writing "an essay")] = some x ∧
        PendingRegraded x := by
  have hSome : (((session cacheSvc cacheCfg).restrict fun x a =>
      submitsWithoutPending x a = true).run (.start essayLesson) [saveEssay .failed,
        saveEssay (.graded ⟨1, 1, "good"⟩), submitCached (.writing "an essay")]).isSome = true := by
    decide +kernel
  obtain ⟨x, hx⟩ := Option.isSome_iff_exists.mp hSome
  have hRun := Machine.Runs.of_restrict hx
  exact ⟨x, hRun.run, pending_regraded hRun⟩

/-- The provisional credit of an essay that could not be graded is cached, and a submission stores
it as the essay's grade. -/
theorem provisional_credit_becomes_final : ∃ x,
    (session cacheSvc cacheCfg).run (.start essayLesson)
      [saveEssay .failed, submitCached (.writing "an essay")] = some x ∧ ¬ PendingRegraded x := by
  have hAny : ((session cacheSvc cacheCfg).run (.start essayLesson)
      [saveEssay .failed, submitCached (.writing "an essay")]).any
        (fun x => !decide (PendingRegraded x)) = true := by decide +kernel
  obtain ⟨x, hRun, hNot⟩ := (Option.any_eq_true _ _).mp hAny
  exact ⟨x, hRun, by simpa using hNot⟩

/-! Scores by the current configuration. -/

/-- The scores that the last submission has stored are those of the handlers of the interactions'
current kinds, by their current configurations, where no AI model is called. -/
def ScoresCurrent (x : Session) : Prop :=
  ∀ stored ∈ x.last.stored, ∀ r ∈ stored.2.1,
    ∀ score ∈ x.site.currentScore r.interactionId r.response, (r.score, r.maxScore) = score

instance (x : Session) : Decidable (ScoresCurrent x) := by unfold ScoresCurrent; infer_instance

/-- The update gives every response with a cached grade the score that it had. -/
def KeepsScores (x : Site) (interactionID : UUID) (message : ConfigMessage) : Prop :=
  ∀ i stored, x.db.lessonInteractions.find interactionID = some i →
    configFromUpdateProto message = .ok stored →
    ∀ t ∈ x.tempGrades.rows, t.interactionId = interactionID →
    ∀ r : ResponseJSON, r.kind = message.kind → goLayout.text r = t.cache.responsePayload →
    ∀ score, handlerScore message.kind stored r = some score →
      dbStringToKind i.kind = message.kind ∧
        handlerScore message.kind (x.config interactionID) r = some score

/-- No step leaves a cached grade behind that is not its handler's, and no submission grades a
listening without its dependencies, unless it is worth nothing. -/
def keepsScoresCurrent (x : Session) : Action → Prop
  | .submitAttempt .unresolved _ _ req => ∀ resp ∈ req.responses,
      x.site.isListening resp.interactionId = true →
      ∀ r ∈ x.site.responseJSON resp, x.site.currentScore resp.interactionId r = some (0, 1)
  | .saveAttemptResponse .unresolved _ _ _ _ respInput => ∀ resp ∈ respInput,
      x.site.isListening resp.interactionId = false
  | .updateInteraction _ _ _ _ interactionID (some message) =>
      KeepsScores x.site interactionID message
  | _ => True

/-- The cached grades of responses of the interactions' current kinds have the scores of the
current configurations. -/
def CacheCurrent (x : Site) : Prop :=
  ∀ t ∈ x.tempGrades.rows, ∀ i, x.db.lessonInteractions.find t.interactionId = some i →
    ∀ r : ResponseJSON, r.kind = dbStringToKind i.kind →
    goLayout.text r = t.cache.responsePayload →
    ∀ score, handlerScore (dbStringToKind i.kind) (x.config i.id) r = some score →
      (t.cache.grade.score, t.cache.grade.maxScore) = score

/-- Fewer cached grades and fewer interactions stay current. -/
theorem CacheCurrent.mono {x x' : Site} (h : CacheCurrent x)
    (hTempGrades : ∀ k t, x'.tempGrades.find k = some t → x.tempGrades.find k = some t)
    (hInteractions : ∀ id i, x'.db.lessonInteractions.find id = some i →
      x.db.lessonInteractions.find id = some i) (hConfig : x'.config = x.config) :
    CacheCurrent x' := by
  intro t ht i hFind r hKind hText score hScore
  have hMem := Table.mem_rows_iff.mpr (hTempGrades _ _ (Table.mem_rows_iff.mp ht))
  rw [hConfig] at hScore
  exact h t hMem i (hInteractions _ _ hFind) r hKind hText score hScore

section Current

variable {s : InteractionsSvc} {cfg : AIConfig} {x x' : Session}

/-- A response that is cached with its handler's score keeps the cache current. -/
theorem CacheCurrent.cacheGrade {x : Site} {failure : Option DbError} {kvFails : Bool}
    {userID lessonID : UUID} {respInput : Option AttemptResponseInput}
    {target : SingleGradeTarget} {g : Grade} (h : CacheCurrent x)
    (hTarget : x.lookupSingleGradeTarget failure lessonID respInput = .ok target)
    (hGrade : ∀ score, handlerScore (dbStringToKind target.interaction.kind)
      (x.config target.interaction.id) target.responseJSON = some score →
        (g.score, g.maxScore) = score) :
    CacheCurrent (x.cacheGrade s kvFails userID lessonID target g) := by
  obtain ⟨input, -, hFind, toJSON, hKind, hJSON⟩ := Site.lookupSingleGradeTarget_cases hTarget
  have hId : target.interaction.id = input.interactionId := Table.find_key hFind
  unfold Site.cacheGrade
  dsimp only
  split
  · intro t ht i hFind' r hr hText score hScore
    rw [Table.mem_rows_iff, Table.find_upsert] at ht
    split at ht
    · next hKey =>
      have hInteraction : t.interactionId = target.interaction.id :=
        (Prod.mk.inj (Prod.mk.inj hKey).2).2
      have hCache : t.cache = ⟨goLayout.text target.responseJSON, g⟩ := by
        rw [← Option.some_inj.mp ht]
        cases x.tempGrades.find t.key <;> rfl
      have hRow : i = target.interaction := by
        have hBoth : x.db.lessonInteractions.find t.interactionId = some target.interaction := by
          rw [hInteraction, hId]
          exact hFind
        exact Option.some_inj.mp (hFind'.symm.trans hBoth)
      subst hRow
      rw [hCache] at hText ⊢
      have hSame : r = target.responseJSON :=
        goLayout_text_injective hr (kind_of_responseProtoToJSON hKind hJSON)
          (by rw [hScore]; exact Option.some_ne_none score) hText
      subst hSame
      exact hGrade score hScore
    · exact h t (Table.mem_rows_iff.mpr ht) i hFind' r hr hText score hScore
  · exact h

theorem CacheCurrent.updateInteraction {x x' : Site} {env : SiteEnv}
    {updateFailure : Option DbError} {tts : Option (Except String String)}
    {teacher : Except Error Unit} {interactionID : UUID} {config : Option ConfigMessage}
    (h : CacheCurrent x)
    (hCall : x.updateInteraction env updateFailure tts teacher interactionID config = .ok x')
    (hKeeps : ∀ message, config = some message → KeepsScores x interactionID message) :
    CacheCurrent x' := by
  obtain ⟨existing, kind, configJSON, hExisting, rfl, hSource⟩ :=
    Site.updateInteraction_cases hCall
  intro t ht i hFind r hKind hText score hScore
  simp only [updateLessonInteraction, Table.find_update, Option.map_eq_some_iff] at hFind
  obtain ⟨i₀, hFind, rfl⟩ := hFind
  have hId : i₀.id = t.interactionId := Table.find_key hFind
  by_cases hUpdated : i₀.id = interactionID
  · obtain rfl : existing = i₀ := by
      rw [← hId, hUpdated, hExisting] at hFind
      exact Option.some_inj.mp hFind
    simp only [hUpdated, decide_true, if_true, dbStringToKind_kindToDBString,
      Function.update_self] at hKind hScore
    rcases hSource with ⟨rfl, rfl⟩ | ⟨message, stored, hMessage, rfl, hStored, hAudio⟩
    · exact h t ht existing hFind r hKind hText score (by rw [hUpdated]; exact hScore)
    · have hStoredScore : handlerScore message.kind stored r = some score := by
        rcases hAudio with rfl | ⟨key, rfl⟩
        · exact hScore
        · rwa [handlerScore_setAudioObjectKey] at hScore
      obtain ⟨hSame, hOld⟩ := hKeeps message hMessage existing stored hExisting hStored t ht
        (hId.symm.trans hUpdated) r hKind hText score hStoredScore
      refine h t ht existing hFind r (hKind.trans hSame.symm) hText score ?_
      rw [hSame, hUpdated]
      exact hOld
  · simp only [hUpdated, decide_false, Bool.false_eq_true, if_false, ne_eq, not_false_eq_true,
      Function.update_of_ne] at hKind hScore
    exact h t ht i₀ hFind r hKind hText score hScore

theorem CacheCurrent.createManualInteraction {x x' : Site} {env : SiteEnv}
    {tts : Option (Except String String)} {teacher : Except Error Unit} {lessonID : UUID}
    {config : ConfigMessage} (h : CacheCurrent x)
    (hCall : x.createManualInteraction env tts teacher lessonID config = some (.ok x')) :
    CacheCurrent x' := by
  obtain ⟨hNew, configJSON, lessonInteractions, hInsert, rfl, -⟩ :=
    Site.createManualInteraction_cases hCall
  intro t ht i hFind r hKind hText score hScore
  have hOther : t.interactionId ≠ env.newID := hNew t ht
  dsimp only at hFind hScore
  rw [Table.find_insert hInsert, if_neg hOther] at hFind
  have hId : i.id ≠ env.newID := fun hSame => hOther ((Table.find_key hFind).symm.trans hSame)
  rw [Function.update_of_ne hId] at hScore
  exact h t ht i hFind r hKind hText score hScore

/-- What every step keeps of the cache. -/
theorem step_cacheCurrent {a : Action} (hGuard : keepsScoresCurrent x a)
    (h : (session s cfg).step x a = some x') (hI : CacheCurrent x.site) :
    CacheCurrent x'.site := by
  cases called_of_step h with
  | submitted hTrace =>
    have hKept := trace_kept hTrace
    exact hI.mono (fun k t => by rw [hKept.tempGrades]; exact id)
      (fun id i => by rw [hKept.lessonInteractions]; exact fun hi => hi) hKept.config
  | kept hSite =>
    rw [hSite]
    exact hI
  | previewed hTarget hGrade hSite =>
    rw [hSite]
    exact hI.cacheGrade hTarget fun score hScore => gradeSingleResponse_score hScore hGrade
  | @saved deps env _ _ _ _ _ target _ hTarget hSite =>
    rw [hSite]
    refine hI.cacheGrade hTarget fun score hScore => ?_
    cases hGrade : x.site.gradeTarget deps env target with
    | some g => exact gradeSingleResponse_score hScore hGrade
    | none =>
      -- Only a listening without its dependencies goes without a grade.
      obtain ⟨rfl, hKind⟩ := deps_of_gradeSingleResponse_none hScore hGrade
      obtain ⟨input, rfl, hFind, -⟩ := Site.lookupSingleGradeTarget_cases hTarget
      have hListening := hGuard input rfl
      rw [Site.isListening, hFind, Option.any_some, hKind] at hListening
      cases hListening
  | updated hCall =>
    refine hI.updateInteraction hCall ?_
    rintro message rfl
    exact hGuard
  | created hCall => exact hI.createManualInteraction hCall
  | reported hSite =>
    rcases hSite with hSite | ⟨durationSec, hSite⟩
    · rw [hSite]
      exact hI
    · rw [hSite, Site.addWatchCoverage]
      split
      · exact hI
      · exact hI.mono (fun _ _ => id) (fun _ _ => id) rfl
  | videoSet hSite hNarrows =>
    rw [hSite]
    exact hI.mono (fun _ _ => id) hNarrows.interactions rfl
  | deleted hSite hFewer =>
    rw [hSite]
    exact hI.mono hFewer (fun _ _ => id) rfl

/-- With a current cache, a submission stores current scores. -/
theorem step_scoresCurrent {a : Action} (hGuard : keepsScoresCurrent x a)
    (h : (session s cfg).step x a = some x') (hI : CacheCurrent x.site) : ScoresCurrent x' := by
  by_cases ha : ∃ deps envs caller req, a = .submitAttempt deps envs caller req
  · obtain ⟨deps, envs, caller, req, rfl⟩ := ha
    obtain ⟨hTrace, -, -, hResult⟩ := step_submitAttempt h
    have hKept := trace_kept hTrace
    rintro ⟨p, rs, a⟩ hStored r hr score hScore
    obtain ⟨out, hHas, -⟩ := has_of_mem_stored hStored
    rcases hResult with ⟨userID, out', rfl, hSubmitted⟩ | hNot
    · obtain ⟨rfl, -⟩ := hSubmitted.stored hHas
      obtain ⟨resp, hResp, i, hId, hFind, hJSON, hKind, hSource⟩ :=
        stored_row hTrace hSubmitted hHas hr
      have hRowScore : handlerScore (dbStringToKind i.kind) (x.site.config i.id) r.response =
          some score := by
        rw [Site.currentScore, hKept.lessonInteractions, hKept.config, hFind] at hScore
        exact hScore
      rcases hSource with hCached | ⟨-, outcome, hGrade⟩
      · obtain ⟨t, ht, hCache⟩ := Option.map_eq_some_iff.mp hCached
        obtain ⟨hMem, hKey⟩ := Table.find_eq_some_iff.mp ht
        have hInteraction : t.interactionId = r.interactionId :=
          (Prod.mk.inj (Prod.mk.inj hKey).2).2
        have hCurrent := hI t hMem i (hInteraction ▸ hFind) r.response hKind
          (by rw [hCache]) score hRowScore
        rw [hCache] at hCurrent
        exact hCurrent
      · show (r.grade.score, r.grade.maxScore) = score
        rw [hGrade]
        refine submitGrade_score hRowScore ?_
        rintro rfl hListening
        have hWorth := hGuard resp hResp
          (by rw [Site.isListening, hId, hFind, Option.any_some, hListening]; rfl)
          r.response hJSON
        rw [Site.currentScore, hId, hFind] at hWorth
        exact Option.some_inj.mp (hRowScore.symm.trans hWorth)
    · exact absurd hHas (hNot.notStored p rs out)
  · have hLast : x'.last = [] := last_of_step h fun deps envs caller req hEq =>
      ha ⟨deps, envs, caller, req, hEq⟩
    rw [ScoresCurrent, hLast]
    exact List.forall_mem_nil _

end Current

/-- From stores without cached grades, in every run whose updates keep the scores of the cached
responses and whose listenings are graded with their dependencies, a submission stores the scores of
the current configurations. -/
theorem scores_current {s : InteractionsSvc} {cfg : AIConfig} {site : Site} {steps : List Action}
    {x : Session} (hTempGrades : site.tempGrades.rows = [])
    (hRun : (session s cfg).Runs keepsScoresCurrent (.start site) steps x) : ScoresCurrent x := by
  have hStart : CacheCurrent (Session.start site).site ∧ ScoresCurrent (.start site) := by
    refine ⟨fun t ht => ?_, List.forall_mem_nil _⟩
    rw [show (Session.start site).site = site from rfl, hTempGrades] at ht
    cases ht
  refine (hRun.invariant (I := fun x => CacheCurrent x.site ∧ ScoresCurrent x) ?_ hStart).2
  rintro x a x' hGuard h ⟨hI, -⟩
  exact ⟨step_cacheCurrent hGuard h hI, step_scoresCurrent hGuard h hI⟩

/-- A lesson with a question, the first option of which is correct. -/
def questionLesson : Site :=
  { essayLesson with
    db :=
      { essayLesson.db with
        lessonInteractions := .ofList [⟨10, 1, "mcq", 0⟩] }
    config := fun _ => .singleChoice ["yes", "no"] 0 }

/-- The teacher corrects the question. -/
def correctQuestion : Action :=
  .updateInteraction {} none none (.ok ()) 10 (some (.mcq ⟨"", ["yes", "no"], 1, []⟩))

def saveFirstOption : Action :=
  .saveAttemptResponse .resolved {} (.ok 100) (.ok ()) 1 (some ⟨10, 0, 0, .mcqSelected 0⟩)

theorem scores_current_correctedBefore : ∃ x,
    (session cacheSvc cacheCfg).run (.start questionLesson)
      [correctQuestion, saveFirstOption, submitCached (.mcqSelected 0)] = some x ∧
        ScoresCurrent x := by
  have hSome : ((session cacheSvc cacheCfg).run (.start questionLesson)
      [correctQuestion, saveFirstOption, submitCached (.mcqSelected 0)]).isSome = true := by
    decide +kernel
  obtain ⟨x, hx⟩ := Option.isSome_iff_exists.mp hSome
  obtain ⟨y, hCorrect, hRest⟩ := Machine.run_cons.mp hx
  obtain ⟨z, hSave, hLast⟩ := Machine.run_cons.mp hRest
  obtain ⟨w, hSubmit, hEnd⟩ := Machine.run_cons.mp hLast
  cases hEnd
  have hKeeps : keepsScoresCurrent (.start questionLesson) correctQuestion :=
    fun _ _ _ _ t ht => nomatch ht
  have hRun : (session cacheSvc cacheCfg).Runs keepsScoresCurrent (.start questionLesson)
      [correctQuestion, saveFirstOption, submitCached (.mcqSelected 0)] x :=
    .cons hKeeps hCorrect (.cons trivial hSave (.cons trivial hSubmit (.nil x)))
  exact ⟨x, hx, scores_current rfl hRun⟩

/-- A question that is corrected after its grade was cached is submitted with the old score. -/
theorem corrected_question_keeps_old_score : ∃ x,
    (session cacheSvc cacheCfg).run (.start questionLesson)
      [saveFirstOption, correctQuestion, submitCached (.mcqSelected 0)] = some x ∧
        ¬ ScoresCurrent x := by
  have hAny : ((session cacheSvc cacheCfg).run (.start questionLesson)
      [saveFirstOption, correctQuestion, submitCached (.mcqSelected 0)]).any
        (fun x => !decide (ScoresCurrent x)) = true := by decide +kernel
  obtain ⟨x, hRun, hNot⟩ := (Option.any_eq_true _ _).mp hAny
  exact ⟨x, hRun, by simpa using hNot⟩

end Richter.Interactions
