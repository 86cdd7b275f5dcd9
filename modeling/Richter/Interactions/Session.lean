import Richter.Interactions.Submission
import Richter.Lib.Machine

/-! Sessions: the calls on the stores one after the other, with what is remembered of them. -/

namespace Richter.Interactions

open Lib

theorem cacheGrade_db {x : Site} {s : InteractionsSvc} {kvFails : Bool} {userID lessonID : UUID}
    {target : SingleGradeTarget} {result : Grade} :
    (x.cacheGrade s kvFails userID lessonID target result).db = x.db := by
  unfold Site.cacheGrade
  split <;> rfl

/-- A report of watched seconds. -/
structure Report where
  userId : UUID
  lessonId : UUID
  fromSec : ℚ
  toSec : ℚ
  deriving DecidableEq

/-- A response that `SaveAttemptResponse` could not grade. -/
structure Provisional where
  userId : UUID
  lessonId : UUID
  interactionId : UUID
  responseJSON : ResponseJSON
  deriving DecidableEq

/-- The stores, and beside them what the last call has done if it was a submission, what has been
reported since each lesson's video was set, and the responses that got the provisional credit. -/
structure Session where
  site : Site
  last : History
  reports : List Report
  provisional : List Provisional

def Session.start (site : Site) : Session := ⟨site, [], [], []⟩

/-- A call with what the environment answers to it. -/
inductive Action
  | submitAttempt (deps : GradingDeps) (envs : List SiteEnv) (caller : Except Error UUID)
      (req : SubmitAttemptRequest)
  | previewGrade (deps : GradingDeps) (env : SiteEnv) (caller : Except Error UUID)
      (member : Except Error Unit) (isStaff : Bool) (lessonID : UUID)
      (respInput : Option AttemptResponseInput)
  | saveAttemptResponse (deps : GradingDeps) (env : SiteEnv) (caller : Except Error UUID)
      (member : Except Error Unit) (lessonID : UUID) (respInput : Option AttemptResponseInput)
  | updateInteraction (env : SiteEnv) (updateFailure : Option DbError)
      (tts : Option (Except String String)) (teacher : Except Error Unit) (interactionID : UUID)
      (config : Option ConfigMessage)
  | createManualInteraction (env : SiteEnv) (tts : Option (Except String String))
      (teacher : Except Error Unit) (lessonID : UUID) (config : ConfigMessage)
  | updateWatchProgress (env : SiteEnv) (positionFails : Option String)
      (caller : Except Error UUID) (req : UpdateWatchProgressRequest) (nowUnixMs : Int)
  | updateLessonVideo (env : SiteEnv) (commitFailure : Option DbError)
      (access : Except Error Unit) (lessonID : UUID) (videoStorageKey : String)
      (durationSeconds : Int)
  | deleteTempGrade (kvFails : Bool)

namespace Session

/-- The session after a call on the stores, which a failing call leaves as they are. -/
def call (x : Session) (site : Except Error Site) : Session :=
  { x with site := site.toOption.getD x.site, last := [] }

/-- The session after a report. -/
def report (x : Session) (caller : Except Error UUID) (req : UpdateWatchProgressRequest)
    (site : Except Error Site) : Session :=
  match caller, site with
  | .ok userID, .ok _ =>
    { x.call site with
      reports := x.reports ++
        [⟨userID, req.lessonId, req.watchedFromSeconds, req.watchedToSeconds⟩] }
  | _, _ => x.call site

/-- The session after a lesson's video is set. -/
def setVideo (x : Session) (lessonID : UUID) (site : Except Error Site) : Session :=
  match site with
  | .ok _ => { x.call site with reports := x.reports.filter fun r => r.lessonId ≠ lessonID }
  | .error _ => x.call site

/-- The session after a response is saved. -/
def save (x : Session) (lessonID : UUID) (saved : Except Error Saved) : Session :=
  match saved with
  | .error e => x.call (.error e)
  | .ok saved =>
    { x.call (.ok saved.site) with
      provisional := x.provisional ++
        if saved.graded.isNone then
          [⟨saved.userID, lessonID, saved.target.interaction.id, saved.target.responseJSON⟩]
        else [] }

end Session

/-- The calls, one after the other. -/
def session (s : InteractionsSvc) (cfg : AIConfig) : Machine Session Action where
  step x a :=
    match a with
    | .submitAttempt deps envs caller req =>
        ((submitAttempt s caller req).run.log (siteExec deps) envs x.site).map fun (_, site, h) =>
          { x with site := site, last := h }
    | .previewGrade deps env caller member isStaff lessonID respInput =>
        some (x.call ((x.site.previewGrade s deps env caller member isStaff lessonID
          respInput).map Prod.snd))
    | .saveAttemptResponse deps env caller member lessonID respInput =>
        some (x.save lessonID
          (x.site.saveAttemptResponse s deps env caller member lessonID respInput))
    | .updateInteraction env updateFailure tts teacher interactionID config =>
        some (x.call (x.site.updateInteraction env updateFailure tts teacher interactionID config))
    | .createManualInteraction env tts teacher lessonID config =>
        (x.site.createManualInteraction env tts teacher lessonID config).map x.call
    | .updateWatchProgress env positionFails caller req nowUnixMs =>
        some (x.report caller req
          (x.site.updateWatchProgress cfg env positionFails caller req nowUnixMs))
    | .updateLessonVideo env commitFailure access lessonID videoStorageKey durationSeconds =>
        some (x.setVideo lessonID (x.site.updateLessonVideo env commitFailure access lessonID
          videoStorageKey durationSeconds))
    | .deleteTempGrade kvFails => (x.site.deleteTempGrade kvFails).map fun site => x.call (.ok site)

section Step

variable {s : InteractionsSvc} {cfg : AIConfig} {x x' : Session}

/-- A submission's events lead from the stores before it to those after it, and tell whether it has
stored its responses. -/
theorem step_submitAttempt {deps : GradingDeps} {envs : List SiteEnv} {caller : Except Error UUID}
    {req : SubmitAttemptRequest}
    (h : (session s cfg).step x (.submitAttempt deps envs caller req) = some x') :
    Prog.Trace (siteExec deps) x.site x'.last x'.site ∧ x'.reports = x.reports ∧
      x'.provisional = x.provisional ∧
      ((∃ userID out, caller = .ok userID ∧ Submitted s userID req out x'.last) ∨
        Aborted x'.last) := by
  obtain ⟨⟨result, site, last⟩, hLog, rfl⟩ := Option.map_eq_some_iff.mp h
  obtain ⟨hTrace, hResult⟩ := Prog.Along.of_log (submitAttempt_logs s caller req) hLog
  refine ⟨hTrace, rfl, rfl, ?_⟩
  cases result with
  | error e => exact .inr hResult
  | ok out =>
    obtain ⟨userID, hCaller, hSubmitted⟩ := hResult
    exact .inl ⟨userID, out, hCaller, hSubmitted⟩

/-- The other calls are no submissions. -/
theorem last_of_step {a : Action} (h : (session s cfg).step x a = some x')
    (ha : ∀ deps envs caller req, a ≠ .submitAttempt deps envs caller req) : x'.last = [] := by
  cases a with
  | submitAttempt deps envs caller req => exact absurd rfl (ha deps envs caller req)
  | previewGrade => cases h; rfl
  | saveAttemptResponse deps env caller member lessonID respInput =>
    cases h
    unfold Session.save
    split <;> rfl
  | updateInteraction => cases h; rfl
  | createManualInteraction =>
    obtain ⟨_, _, rfl⟩ := Option.map_eq_some_iff.mp h
    rfl
  | updateWatchProgress =>
    cases h
    unfold Session.report
    split <;> rfl
  | updateLessonVideo =>
    cases h
    unfold Session.setVideo
    split <;> rfl
  | deleteTempGrade =>
    obtain ⟨_, _, rfl⟩ := Option.map_eq_some_iff.mp h
    rfl

/-- What a call does to the stores and to the reports. -/
inductive Called (s : InteractionsSvc) (cfg : AIConfig) (x : Session) : Action → Session → Prop
  | submitted {deps envs caller req x'}
      (trace : Prog.Trace (siteExec deps) x.site x'.last x'.site)
      (reports : x'.reports = x.reports) : Called s cfg x (.submitAttempt deps envs caller req) x'
  | kept {a x'} (site : x'.site = x.site) (reports : x'.reports = x.reports) : Called s cfg x a x'
  | previewed {deps env caller member isStaff lessonID respInput userID target g x'}
      (lookup : x.site.lookupSingleGradeTarget env.failure lessonID respInput = .ok target)
      (grade : x.site.gradeTarget deps env target = some g)
      (site : x'.site = x.site.cacheGrade s env.kvFails userID lessonID target g)
      (reports : x'.reports = x.reports) :
      Called s cfg x (.previewGrade deps env caller member isStaff lessonID respInput) x'
  | saved {deps env caller member lessonID respInput userID target x'}
      (lookup : x.site.lookupSingleGradeTarget env.failure lessonID respInput = .ok target)
      (site : x'.site = x.site.cacheGrade s env.kvFails userID lessonID target
        ((x.site.gradeTarget deps env target).getD pendingGrade))
      (reports : x'.reports = x.reports) :
      Called s cfg x (.saveAttemptResponse deps env caller member lessonID respInput) x'
  | updated {env updateFailure tts teacher interactionID config x'}
      (call : x.site.updateInteraction env updateFailure tts teacher interactionID config =
        .ok x'.site)
      (reports : x'.reports = x.reports) :
      Called s cfg x (.updateInteraction env updateFailure tts teacher interactionID config) x'
  | created {env tts teacher lessonID config x'}
      (call : x.site.createManualInteraction env tts teacher lessonID config = some (.ok x'.site))
      (reports : x'.reports = x.reports) :
      Called s cfg x (.createManualInteraction env tts teacher lessonID config) x'
  | reported {env positionFails userID req nowUnixMs x'}
      (site : x'.site = x.site ∨ ∃ durationSec,
        x'.site = x.site.addWatchCoverage cfg userID req durationSec nowUnixMs)
      (reports : x'.reports = x.reports ++
        [⟨userID, req.lessonId, req.watchedFromSeconds, req.watchedToSeconds⟩]) :
      Called s cfg x (.updateWatchProgress env positionFails (.ok userID) req nowUnixMs) x'
  | videoSet {env commitFailure access lessonID videoStorageKey durationSeconds db x'}
      (site : x'.site = { x.site with
        videoStorageKey := Function.update x.site.videoStorageKey lessonID (some videoStorageKey)
        db := db })
      (narrows : x.site.db.Narrows db)
      (reports : x'.reports = x.reports.filter fun r => r.lessonId ≠ lessonID) :
      Called s cfg x (.updateLessonVideo env commitFailure access lessonID videoStorageKey
        durationSeconds) x'
  | deleted {kvFails tempGrades background x'}
      (site : x'.site = { x.site with tempGrades := tempGrades, background := background })
      (fewer : ∀ k t, tempGrades.find k = some t → x.site.tempGrades.find k = some t)
      (reports : x'.reports = x.reports) : Called s cfg x (.deleteTempGrade kvFails) x'

theorem called_of_step {a : Action} (h : (session s cfg).step x a = some x') :
    Called s cfg x a x' := by
  cases a with
  | submitAttempt deps envs caller req =>
    obtain ⟨hTrace, hReports, -, -⟩ := step_submitAttempt h
    exact .submitted hTrace hReports
  | previewGrade deps env caller member isStaff lessonID respInput =>
    cases h
    cases hCall : x.site.previewGrade s deps env caller member isStaff lessonID respInput with
    | error e => exact .kept rfl rfl
    | ok reply =>
      rcases Site.previewGrade_cases hCall with hSite | ⟨userID, target, hTarget, hGrade, hSite⟩
      · exact .kept hSite rfl
      · exact .previewed hTarget hGrade hSite rfl
  | saveAttemptResponse deps env caller member lessonID respInput =>
    cases h
    cases hCall : x.site.saveAttemptResponse s deps env caller member lessonID respInput with
    | error e => exact .kept rfl rfl
    | ok saved =>
      obtain ⟨-, hTarget, hGraded, hSite⟩ := Site.saveAttemptResponse_cases hCall
      exact .saved hTarget (hGraded ▸ hSite) rfl
  | updateInteraction env updateFailure tts teacher interactionID config =>
    cases h
    cases hCall : x.site.updateInteraction env updateFailure tts teacher interactionID config with
    | error e => exact .kept rfl rfl
    | ok site => exact .updated hCall rfl
  | createManualInteraction env tts teacher lessonID config =>
    obtain ⟨result, hCall, rfl⟩ := Option.map_eq_some_iff.mp h
    cases result with
    | error e => exact .kept rfl rfl
    | ok site => exact .created hCall rfl
  | updateWatchProgress env positionFails caller req nowUnixMs =>
    cases h
    cases hCall : x.site.updateWatchProgress cfg env positionFails caller req nowUnixMs with
    | error e => cases caller <;> exact .kept rfl rfl
    | ok site =>
      cases caller with
      | error e => cases hCall
      | ok userID =>
        refine .reported ?_ rfl
        rcases Site.updateWatchProgress_cases hCall with hSite | ⟨_, durationSec, hCaller, hSite⟩
        · exact .inl hSite
        · cases hCaller
          exact .inr ⟨durationSec, hSite⟩
  | updateLessonVideo env commitFailure access lessonID videoStorageKey durationSeconds =>
    cases h
    cases hCall : x.site.updateLessonVideo env commitFailure access lessonID videoStorageKey
        durationSeconds with
    | error e => exact .kept rfl rfl
    | ok site =>
      obtain ⟨db, hSite, hNarrows⟩ := Site.updateLessonVideo_cases hCall
      exact .videoSet hSite hNarrows rfl
  | deleteTempGrade kvFails =>
    obtain ⟨site, hCall, rfl⟩ := Option.map_eq_some_iff.mp h
    obtain ⟨_, _, hSite, hFewer⟩ := Site.deleteTempGrade_cases hCall
    exact .deleted hSite hFewer rfl

end Step

end Richter.Interactions
