import Richter.Interactions.Grading
import Richter.Interactions.SubmitAttempt
import Richter.Kv.WatchCoverage

/-! The stores behind the exercises of a lesson: the tables of Postgres with the columns that
`SubmitAttempt` does not read itself, and the cached grades and the watched seconds that are kept in
FoundationDB.  The calls of the services on them come one after the other. -/

namespace Richter.Interactions

open Lib

/-- A cached grade under its key. -/
structure TempGrade where
  userId : UUID
  lessonId : UUID
  interactionId : UUID
  cache : FdbTempGradeCache
  deriving DecidableEq

def TempGrade.key (t : TempGrade) : UUID × UUID × UUID := (t.userId, t.lessonId, t.interactionId)

def TempGrade.set (cache : FdbTempGradeCache) (t : TempGrade) : TempGrade :=
  { t with cache := cache }

@[simp] theorem TempGrade.set_key (cache : FdbTempGradeCache) (t : TempGrade) :
    (t.set cache).key = t.key := rfl

/-- The watched seconds of a student under their key. -/
structure Coverage where
  userId : UUID
  lessonId : UUID
  watched : Kv.WatchCoverage
  deriving DecidableEq

def Coverage.key (c : Coverage) : UUID × UUID := (c.userId, c.lessonId)

def Coverage.set (watched : Kv.WatchCoverage) (c : Coverage) : Coverage :=
  { c with watched := watched }

@[simp] theorem Coverage.set_key (watched : Kv.WatchCoverage) (c : Coverage) :
    (c.set watched).key = c.key := rfl

/-- The stores.  `background` are the cached grades that a goroutine has still to delete. -/
structure Site where
  db : Db
  videoStorageKey : UUID → Option String
  feedbackMode : UUID → String
  config : UUID → ConfigJSON
  tempGrades : Table TempGrade TempGrade.key
  coverage : Table Coverage Coverage.key
  background : List (UUID × UUID × UUID)

/-- What the environment decides: whether a statement or FoundationDB fails, what an AI model's
grade comes to, and the id that `uuidv7()` makes. -/
structure SiteEnv where
  failure : Option DbError := none
  kvFails : Bool := false
  outcome : Outcome := .failed
  newID : UUID := 0

namespace Site

def tempGrade (x : Site) (userID lessonID interactionID : UUID) : Option FdbTempGradeCache :=
  (x.tempGrades.find (userID, lessonID, interactionID)).map (·.cache)

def watched (x : Site) (userID lessonID : UUID) : Kv.WatchCoverage :=
  ((x.coverage.find (userID, lessonID)).map (·.watched)).getD {}

end Site

/-- What the stores answer to `SubmitAttempt`, whose grading dependencies are resolved once. -/
def SiteEnv.toEnv (deps : GradingDeps) (env : SiteEnv) (x : Site) (o : Op) : Env where
  failure := env.failure
  cached :=
    match o with
    | .tempGrade userId lessonId interactionId =>
        if env.kvFails then none else x.tempGrade userId lessonId interactionId
    | _ => none
  graded :=
    match o with
    | .grade interaction response =>
        submitGrade deps env.outcome (dbStringToKind interaction.kind)
          (x.config interaction.id) response
    | _ => ⟨0, 0, ""⟩
  fraction :=
    match o with
    | .watchCoverageFraction userId lessonId durationSeconds =>
        if env.kvFails then none
        else some (Kv.watchCoverageFraction durationSeconds (x.watched userId lessonId).bitmap)
    | _ => none
  newID := env.newID

/-- What an operation leaves to a goroutine. -/
def Op.background : Op → List (UUID × UUID × UUID)
  | .deleteTempGrade userId lessonId interactionId => [(userId, lessonId, interactionId)]
  | _ => []

/-- An operation of `SubmitAttempt` on the stores. -/
def siteExec (deps : GradingDeps) (env : SiteEnv) (o : Op) (x : Site) :
    Option (o.Resp × Site) :=
  (exec (env.toEnv deps x o) o x.db).map fun (r, db) =>
    (r, { x with db := db, background := x.background ++ o.background })

theorem siteExec_cases {deps : GradingDeps} {env : SiteEnv} {o : Op} {x x' : Site} {r : o.Resp}
    (h : siteExec deps env o x = some (r, x')) :
    ∃ db, exec (env.toEnv deps x o) o x.db = some (r, db) ∧
      x' = { x with db := db, background := x.background ++ o.background } := by
  obtain ⟨⟨r', db⟩, hExec, hEq⟩ := Option.map_eq_some_iff.mp h
  cases hEq
  exact ⟨db, hExec, rfl⟩

/-- The grade of a response that could not be graded yet. -/
def pendingGrade : Grade :=
  ⟨1 / 2, 1, "Đang chấm điểm — kết quả tạm thời sẽ được cập nhật khi bạn nộp bài."⟩

structure SingleGradeTarget where
  feedbackMode : String
  interaction : LessonInteraction
  responseJSON : ResponseJSON

structure SaveAttemptResponseResponse where
  score : ℚ
  maxScore : ℚ
  feedback : String
  feedbackRevealed : Bool
  deriving DecidableEq

/-- What `SaveAttemptResponse` has come to; `graded` is missing when the response could not be
graded. -/
structure Saved where
  userID : UUID
  target : SingleGradeTarget
  graded : Option Grade
  reply : SaveAttemptResponseResponse
  site : Site

namespace Site

/-- `lookupSingleGradeTarget`. -/
def lookupSingleGradeTarget (x : Site) (failure : Option DbError) (lessonID : UUID)
    (respInput : Option AttemptResponseInput) : Except Error SingleGradeTarget :=
  match respInput with
  | none => .error (.connect .invalidArgument "response required")
  | some input =>
    let got : Except DbError LessonInteraction := do
      let _ ← one (x.db.lessons.find lessonID)
      one (x.db.lessonInteractions.find input.interactionId)
    match orFailure failure got with
    | .error e => .error (connectDBError e)
    | .ok interaction =>
      if interaction.lessonId ≠ lessonID then
        .error (.connect .invalidArgument "interaction does not belong to lesson")
      else
        match responseProtoToJSON (dbStringToKind interaction.kind) with
        | none =>
          .error (.connect .unimplemented
            ("no handler for interaction kind \"" ++ interaction.kind ++ "\""))
        | some toJSON =>
          match toJSON input.response with
          | .error e => .error e
          | .ok responseJSON => .ok ⟨x.feedbackMode lessonID, interaction, responseJSON⟩

/-- `cacheGrade`, whose failure is not told. -/
def cacheGrade (x : Site) (s : InteractionsSvc) (kvFails : Bool) (userID lessonID : UUID)
    (target : SingleGradeTarget) (result : Grade) : Site :=
  let cache : FdbTempGradeCache := ⟨goLayout.text target.responseJSON, result⟩
  if s.kv && !kvFails then
    { x with
      tempGrades := x.tempGrades.upsert ⟨userID, lessonID, target.interaction.id, cache⟩
        (.set cache) (TempGrade.set_key cache) }
  else x

/-- The grade of a target. -/
def gradeTarget (x : Site) (deps : GradingDeps) (env : SiteEnv) (target : SingleGradeTarget) :
    Option Grade :=
  gradeSingleResponse deps env.outcome (dbStringToKind target.interaction.kind)
    (x.config target.interaction.id) target.responseJSON

/-- `PreviewGrade`.  `caller`, `member` and `isStaff` are what the access checks answer. -/
def previewGrade (x : Site) (s : InteractionsSvc) (deps : GradingDeps) (env : SiteEnv)
    (caller : Except Error UUID) (member : Except Error Unit) (isStaff : Bool) (lessonID : UUID)
    (respInput : Option AttemptResponseInput) : Except Error (Grade × Site) := do
  let userID ← caller
  let target ← x.lookupSingleGradeTarget env.failure lessonID respInput
  member
  if target.feedbackMode ≠ "after_each" && !isStaff then
    throw (.connect .failedPrecondition
      "preview grading only allowed when feedback_mode is after_each")
  else
    match x.gradeTarget deps env target with
    | none => return (pendingGrade, x)
    | some result => return (result, x.cacheGrade s env.kvFails userID lessonID target result)

/-- `SaveAttemptResponse`. -/
def saveAttemptResponse (x : Site) (s : InteractionsSvc) (deps : GradingDeps) (env : SiteEnv)
    (caller : Except Error UUID) (member : Except Error Unit) (lessonID : UUID)
    (respInput : Option AttemptResponseInput) : Except Error Saved := do
  let userID ← caller
  let target ← x.lookupSingleGradeTarget env.failure lessonID respInput
  member
  let graded := x.gradeTarget deps env target
  let result := graded.getD pendingGrade
  return {
    userID := userID
    target := target
    graded := graded
    reply :=
      if target.feedbackMode ≠ "after_each" then ⟨0, 0, "", false⟩
      else ⟨result.score, result.maxScore, result.feedback, true⟩
    site := x.cacheGrade s env.kvFails userID lessonID target result }

/-- What `SaveAttemptResponse` comes to grade, and for whom. -/
def saveTarget (x : Site) (env : SiteEnv) (caller : Except Error UUID) (member : Except Error Unit)
    (lessonID : UUID) (respInput : Option AttemptResponseInput) :
    Except Error (UUID × SingleGradeTarget) := do
  let userID ← caller
  let target ← x.lookupSingleGradeTarget env.failure lessonID respInput
  member
  return (userID, target)

/-- What `PreviewGrade` comes to grade, and for whom. -/
def previewTarget (x : Site) (env : SiteEnv) (caller : Except Error UUID)
    (member : Except Error Unit) (isStaff : Bool) (lessonID : UUID)
    (respInput : Option AttemptResponseInput) : Except Error (UUID × SingleGradeTarget) := do
  let (userID, target) ← x.saveTarget env caller member lessonID respInput
  if target.feedbackMode ≠ "after_each" && !isStaff then
    throw (.connect .failedPrecondition
      "preview grading only allowed when feedback_mode is after_each")
  else return (userID, target)

end Site

/-- The kind that `UpdateInteraction` and `CreateManualInteraction` choose for a message. -/
def ConfigMessage.kind : ConfigMessage → InteractionKind
  | .mcq mcqCfg => if mcqCfg.correctAnswers ≠ [] then .multipleChoice else .singleChoice
  | .fillBlank .. => .fillBlank
  | .listening .. => .listening
  | .reading .. => .reading
  | .writing .. => .writing

/-- `UpdateLessonInteraction`, of the kind. -/
def updateLessonInteraction (id : UUID) (kind : String) (db : Db) : Db :=
  { db with
    lessonInteractions := db.lessonInteractions.update (fun i => i.id = id)
      (fun i => { i with kind := kind }) fun _ => rfl }

/-- `GetLessonInteractionNextOrderIndex`. -/
def nextOrderIndex (lessonId : UUID) (db : Db) : Int :=
  ((db.lessonInteractions.rows.filter fun i => i.lessonId = lessonId).map fun i =>
    i.orderIndex + 1).max?.getD 0

/-- `UpdateLessonVideo`, of the duration. -/
def setDuration (lessonId : UUID) (durationSeconds : Int) (db : Db) : Db :=
  { db with
    lessons := db.lessons.update (fun l => l.id = lessonId)
      (fun l => { l with
        durationSeconds := if 0 < durationSeconds then some durationSeconds.toNat else none })
      fun _ => rfl }

/-- `DeleteLessonAttempts`, whose responses go with them. -/
def deleteLessonAttempts (lessonId : UUID) (db : Db) : Db :=
  { db with
    lessonAttempts := db.lessonAttempts.delete fun a => a.lessonId = lessonId
    lessonAttemptResponses := db.lessonAttemptResponses.delete fun r =>
      db.lessonAttempts.rows.any fun a => a.lessonId = lessonId && a.id = r.attemptId }

/-- `DeleteLessonInteractionsByLesson`, whose responses go with them. -/
def deleteLessonInteractionsByLesson (lessonId : UUID) (db : Db) : Db :=
  { db with
    lessonInteractions := db.lessonInteractions.delete fun i => i.lessonId = lessonId
    lessonAttemptResponses := db.lessonAttemptResponses.delete fun r =>
      (db.lessonInteractions.find r.interactionId).any fun i => i.lessonId = lessonId }

/-- The settings of `UpdateWatchProgress`. -/
structure AIConfig where
  watchCoverageMaxRate : ℚ
  watchCoverageInitialGraceSeconds : Int
  deriving DecidableEq

structure UpdateWatchProgressRequest where
  lessonId : UUID
  watchedFromSeconds : ℚ
  watchedToSeconds : ℚ
  deriving DecidableEq

namespace Site

/-- `UpdateInteraction`.  `teacher` is the role check, and `updateFailure` the failure of its second
statement. -/
def updateInteraction (x : Site) (env : SiteEnv) (updateFailure : Option DbError)
    (tts : Option (Except String String)) (teacher : Except Error Unit) (interactionID : UUID)
    (config : Option ConfigMessage) : Except Error Site := do
  let existing ← (orFailure env.failure
    (one (x.db.lessonInteractions.find interactionID))).mapError connectDBError
  teacher
  let kind := (config.map ConfigMessage.kind).getD (dbStringToKind existing.kind)
  let configJSON ←
    match config with
    | none => pure (x.config interactionID)
    | some message => do
      let configJSON ← configFromUpdateProto message
      maybeSynthesizeListeningAudio tts configJSON (some (x.config interactionID))
  match updateFailure with
  | some e => throw (connectDBError e)
  | none =>
    return { x with
      db := updateLessonInteraction interactionID (kindToDBString kind) x.db
      config := Function.update x.config interactionID configJSON }

/-- `CreateManualInteraction`, which makes an id that nothing has had (`none`). -/
def createManualInteraction (x : Site) (env : SiteEnv) (tts : Option (Except String String))
    (teacher : Except Error Unit) (lessonID : UUID) (config : ConfigMessage) :
    Option (Except Error Site) :=
  if x.tempGrades.rows.any fun t => t.interactionId = env.newID then none
  else
    let configJSON : Except Error ConfigJSON := do
      teacher
      let configJSON ← configFromCreateProto config
      maybeSynthesizeListeningAudio tts configJSON none
    match configJSON with
    | .error e => some (.error e)
    | .ok configJSON =>
      match env.failure with
      | some e => some (.error (connectDBError e))
      | none =>
        if (x.db.lessons.find lessonID).isNone then some (.error (connectDBError (.pg "23503")))
        else
          (x.db.lessonInteractions.insert ⟨env.newID, lessonID, kindToDBString config.kind,
            nextOrderIndex lessonID x.db⟩).map fun lessonInteractions =>
              .ok { x with
                db := { x.db with lessonInteractions := lessonInteractions }
                config := Function.update x.config env.newID configJSON }

/-- The watched seconds after a report. -/
def addWatchCoverage (x : Site) (cfg : AIConfig) (userID : UUID) (req : UpdateWatchProgressRequest)
    (durationSec nowUnixMs : Int) : Site :=
  match Kv.addWatchCoverage req.watchedFromSeconds req.watchedToSeconds durationSec nowUnixMs
      cfg.watchCoverageMaxRate cfg.watchCoverageInitialGraceSeconds
      (x.watched userID req.lessonId) with
  | .error _ => x
  | .ok watched =>
    { x with
      coverage := x.coverage.upsert ⟨userID, req.lessonId, watched⟩ (.set watched)
        (Coverage.set_key watched) }

/-- `UpdateWatchProgress`.  `caller` is the access check; the position that is saved first may fail
(`positionFails`), and the coverage is only logged when it does (`env.kvFails`). -/
def updateWatchProgress (x : Site) (cfg : AIConfig) (env : SiteEnv) (positionFails : Option String)
    (caller : Except Error UUID) (req : UpdateWatchProgressRequest) (nowUnixMs : Int) :
    Except Error Site := do
  let userID ← caller
  match positionFails with
  | some e => throw (.connect .internal ("save watch progress: " ++ e))
  | none =>
    if req.watchedFromSeconds < req.watchedToSeconds && !env.kvFails then
      let durationSec : Int :=
        match orFailure env.failure (one (x.db.lessons.find req.lessonId)) with
        | .error _ => 0
        | .ok lesson => (lesson.durationSeconds.getD 0 : Nat)
      return x.addWatchCoverage cfg userID req durationSec nowUnixMs
    else return x

/-- `UpdateLessonVideo`.  `access` is what the role check and the checks of the storage key answer,
and `commitFailure` the failure of the transaction.  What hangs on a video that is replaced goes
with it. -/
def updateLessonVideo (x : Site) (env : SiteEnv) (commitFailure : Option DbError)
    (access : Except Error Unit) (lessonID : UUID) (videoStorageKey : String)
    (durationSeconds : Int) : Except Error Site := do
  let existing ← (orFailure env.failure (one (x.db.lessons.find lessonID))).mapError connectDBError
  access
  match commitFailure with
  | some e => throw (connectDBError e)
  | none =>
    let updated := setDuration existing.id durationSeconds x.db
    return { x with
      videoStorageKey := Function.update x.videoStorageKey existing.id (some videoStorageKey)
      db :=
        if (x.videoStorageKey existing.id).isSome then
          deleteLessonInteractionsByLesson existing.id (deleteLessonAttempts existing.id updated)
        else updated }

/-- The goroutine of a submission deletes a cached grade. -/
def deleteTempGrade (x : Site) (kvFails : Bool) : Option Site :=
  match x.background with
  | [] => none
  | key :: rest =>
    some { x with
      tempGrades := if kvFails then x.tempGrades else x.tempGrades.delete fun t => t.key = key
      background := rest }

end Site

/-- A database with some of the rows of another one, where what is left of an attempt's responses
has its attempt left. -/
structure Db.Narrows (db db' : Db) : Prop where
  interactions : ∀ id i, db'.lessonInteractions.find id = some i →
    db.lessonInteractions.find id = some i
  attempts : ∀ a ∈ db'.lessonAttempts.rows, a ∈ db.lessonAttempts.rows
  responses : ∀ r ∈ db'.lessonAttemptResponses.rows, r ∈ db.lessonAttemptResponses.rows ∧
    ∀ a ∈ db.lessonAttempts.rows, a.id = r.attemptId → a ∈ db'.lessonAttempts.rows

theorem Db.Narrows.trans {db₁ db₂ db₃ : Db} (h : db₁.Narrows db₂) (h' : db₂.Narrows db₃) :
    db₁.Narrows db₃ where
  interactions id i hi := h.interactions id i (h'.interactions id i hi)
  attempts a ha := h.attempts a (h'.attempts a ha)
  responses r hr := by
    obtain ⟨hr₂, hKept'⟩ := h'.responses r hr
    obtain ⟨hr₁, hKept⟩ := h.responses r hr₂
    exact ⟨hr₁, fun a ha hId => hKept' a (hKept a ha hId) hId⟩

section Narrows

variable (lessonId : UUID) (db : Db)

theorem narrows_setDuration (durationSeconds : Int) :
    db.Narrows (setDuration lessonId durationSeconds db) :=
  ⟨fun _ _ => id, fun _ => id, fun _ hr => ⟨hr, fun _ ha _ => ha⟩⟩

theorem narrows_deleteLessonAttempts : db.Narrows (deleteLessonAttempts lessonId db) where
  interactions _ _ := id
  attempts _ ha := (List.mem_filter.mp ha).1
  responses r hr := by
    obtain ⟨hOld, hKept⟩ := List.mem_filter.mp hr
    refine ⟨hOld, fun a ha hId => List.mem_filter.mpr ⟨ha, ?_⟩⟩
    have hOther : ∀ b ∈ db.lessonAttempts.rows, b.lessonId = lessonId → b.id ≠ r.attemptId := by
      simpa using hKept
    simp only [Bool.not_eq_true', decide_eq_false_iff_not]
    exact fun hLesson => hOther a ha hLesson hId

theorem narrows_deleteLessonInteractionsByLesson :
    db.Narrows (deleteLessonInteractionsByLesson lessonId db) where
  interactions id i hFind := by
    simp only [deleteLessonInteractionsByLesson, Table.find_delete,
      Option.filter_eq_some_iff] at hFind
    exact hFind.1
  attempts _ := id
  responses _ hr := ⟨(List.mem_filter.mp hr).1, fun _ ha _ => ha⟩

end Narrows

namespace Site

section Cases

variable {x x' : Site} {s : InteractionsSvc} {cfg : AIConfig} {deps : GradingDeps} {env : SiteEnv}
  {caller : Except Error UUID} {member teacher access : Except Error Unit} {isStaff : Bool}
  {lessonID interactionID : UUID} {respInput : Option AttemptResponseInput}
  {updateFailure commitFailure : Option DbError} {tts : Option (Except String String)}

theorem saveTarget_cases {t : UUID × SingleGradeTarget}
    (h : x.saveTarget env caller member lessonID respInput = .ok t) :
    caller = .ok t.1 ∧ member = .ok () ∧
      x.lookupSingleGradeTarget env.failure lessonID respInput = .ok t.2 := by
  unfold saveTarget at h
  cases caller with
  | error e => cases h
  | ok userID =>
    cases hTarget : x.lookupSingleGradeTarget env.failure lessonID respInput with
    | error e => rw [hTarget] at h; cases h
    | ok target =>
      rw [hTarget] at h
      cases member with
      | error e => cases h
      | ok _ =>
        cases h
        exact ⟨rfl, rfl, rfl⟩

theorem saveTarget_of_previewTarget {t : UUID × SingleGradeTarget}
    (h : x.previewTarget env caller member isStaff lessonID respInput = .ok t) :
    x.saveTarget env caller member lessonID respInput = .ok t := by
  unfold previewTarget at h
  cases hSave : x.saveTarget env caller member lessonID respInput with
  | error e => rw [hSave] at h; cases h
  | ok u =>
    rw [hSave] at h
    simp only [bind, Except.bind] at h
    split at h
    · cases h
    · cases h
      rfl

/-- A response that is saved has been graded. -/
theorem map_saveAttemptResponse :
    (x.saveAttemptResponse s deps env caller member lessonID respInput).map
        (fun saved => (saved.userID, saved.target)) =
      x.saveTarget env caller member lessonID respInput := by
  unfold saveAttemptResponse saveTarget
  cases caller with
  | error e => rfl
  | ok userID =>
    cases x.lookupSingleGradeTarget env.failure lessonID respInput with
    | error e => rfl
    | ok target => cases member <;> rfl

theorem previewGrade_eq :
    x.previewGrade s deps env caller member isStaff lessonID respInput =
      (x.previewTarget env caller member isStaff lessonID respInput).map fun (userID, target) =>
        match x.gradeTarget deps env target with
        | none => (pendingGrade, x)
        | some result => (result, x.cacheGrade s env.kvFails userID lessonID target result) := by
  unfold previewGrade previewTarget saveTarget
  cases caller with
  | error e => rfl
  | ok userID =>
    cases x.lookupSingleGradeTarget env.failure lessonID respInput with
    | error e => rfl
    | ok target =>
      cases member with
      | error e => rfl
      | ok _ =>
        simp only [bind, Except.bind, pure, Except.pure]
        split
        · rfl
        · simp only [Except.map]
          cases x.gradeTarget deps env target <;> rfl

theorem previewGrade_cases {g : Grade}
    (h : x.previewGrade s deps env caller member isStaff lessonID respInput = .ok (g, x')) :
    x' = x ∨ ∃ userID target,
      x.lookupSingleGradeTarget env.failure lessonID respInput = .ok target ∧
      x.gradeTarget deps env target = some g ∧
      x' = x.cacheGrade s env.kvFails userID lessonID target g := by
  rw [previewGrade_eq] at h
  cases hTarget : x.previewTarget env caller member isStaff lessonID respInput with
  | error e => rw [hTarget] at h; cases h
  | ok t =>
    obtain ⟨-, -, hLookup⟩ := saveTarget_cases (saveTarget_of_previewTarget hTarget)
    rw [hTarget] at h
    cases hGrade : x.gradeTarget deps env t.2 with
    | none =>
      simp only [Except.map, hGrade] at h
      cases h
      exact .inl rfl
    | some result =>
      simp only [Except.map, hGrade] at h
      cases h
      exact .inr ⟨t.1, t.2, hLookup, hGrade, rfl⟩

theorem saveAttemptResponse_cases {saved : Saved}
    (h : x.saveAttemptResponse s deps env caller member lessonID respInput = .ok saved) :
    caller = .ok saved.userID ∧
      x.lookupSingleGradeTarget env.failure lessonID respInput = .ok saved.target ∧
      saved.graded = x.gradeTarget deps env saved.target ∧
      saved.site = x.cacheGrade s env.kvFails saved.userID lessonID saved.target
        (saved.graded.getD pendingGrade) := by
  have hMap : (x.saveAttemptResponse s deps env caller member lessonID respInput).map
      (fun saved => (saved.userID, saved.target)) =
      x.saveTarget env caller member lessonID respInput := map_saveAttemptResponse
  rw [h] at hMap
  obtain ⟨hCaller, hMember, hLookup⟩ := saveTarget_cases hMap.symm
  refine ⟨hCaller, hLookup, ?_⟩
  obtain ⟨userID, target, graded, reply, site⟩ := saved
  simp only [saveAttemptResponse, hCaller, hMember, hLookup] at h
  cases h
  exact ⟨rfl, rfl⟩

/-- A target is a row with its handler's response. -/
theorem lookupSingleGradeTarget_cases {failure : Option DbError} {target : SingleGradeTarget}
    (h : x.lookupSingleGradeTarget failure lessonID respInput = .ok target) :
    ∃ input, respInput = some input ∧
      x.db.lessonInteractions.find input.interactionId = some target.interaction ∧
      ∃ toJSON, responseProtoToJSON (dbStringToKind target.interaction.kind) = some toJSON ∧
        toJSON input.response = .ok target.responseJSON := by
  cases respInput with
  | none => cases h
  | some input =>
    simp only [lookupSingleGradeTarget] at h
    split at h
    · cases h
    · next interaction hGot =>
      obtain ⟨-, hGot⟩ := orFailure_eq_ok.mp hGot
      split at h
      · cases h
      · split at h
        · cases h
        · next toJSON hKind =>
          split at h
          · cases h
          · next responseJSON hJSON =>
            cases h
            refine ⟨input, rfl, ?_, toJSON, hKind, hJSON⟩
            cases hLesson : one (x.db.lessons.find lessonID) with
            | error e => rw [hLesson] at hGot; cases hGot
            | ok lesson =>
              rw [hLesson] at hGot
              exact one_eq_ok.mp hGot

/-- An update writes the kind that it chooses, with the old configuration or with a new one. -/
theorem updateInteraction_cases {config : Option ConfigMessage}
    (h : x.updateInteraction env updateFailure tts teacher interactionID config = .ok x') :
    ∃ existing kind configJSON, x.db.lessonInteractions.find interactionID = some existing ∧
      x' = { x with
        db := updateLessonInteraction interactionID (kindToDBString kind) x.db
        config := Function.update x.config interactionID configJSON } ∧
      (kind = dbStringToKind existing.kind ∧ configJSON = x.config interactionID ∨
        ∃ message stored, config = some message ∧ kind = message.kind ∧
          configFromUpdateProto message = .ok stored ∧
          (configJSON = stored ∨ ∃ key, configJSON = stored.setAudioObjectKey key)) := by
  unfold updateInteraction at h
  cases hExisting : orFailure env.failure (one (x.db.lessonInteractions.find interactionID)) with
  | error e => rw [hExisting] at h; cases h
  | ok existing =>
    have hFind := one_eq_ok.mp (orFailure_eq_ok.mp hExisting).2
    rw [hExisting] at h
    cases teacher with
    | error e => cases h
    | ok _ =>
      cases config with
      | none =>
        cases updateFailure with
        | some e => cases h
        | none =>
          cases h
          exact ⟨existing, _, _, hFind, rfl, .inl ⟨rfl, rfl⟩⟩
      | some message =>
        simp only [Except.mapError, bind, Except.bind] at h
        cases hStored : configFromUpdateProto message with
        | error e => rw [hStored] at h; cases h
        | ok stored =>
          rw [hStored] at h
          dsimp only at h
          cases hAudio : maybeSynthesizeListeningAudio tts stored
              (some (x.config interactionID)) with
          | error e => rw [hAudio] at h; cases h
          | ok configJSON =>
            rw [hAudio] at h
            cases updateFailure with
            | some e => cases h
            | none =>
              cases h
              exact ⟨existing, _, configJSON, hFind, rfl, .inr ⟨message, stored, rfl, rfl,
                hStored, maybeSynthesizeListeningAudio_cases hAudio⟩⟩

theorem createManualInteraction_cases {config : ConfigMessage}
    (h : x.createManualInteraction env tts teacher lessonID config = some (.ok x')) :
    (∀ t ∈ x.tempGrades.rows, t.interactionId ≠ env.newID) ∧
      ∃ configJSON lessonInteractions,
        x.db.lessonInteractions.insert ⟨env.newID, lessonID, kindToDBString config.kind,
          nextOrderIndex lessonID x.db⟩ = some lessonInteractions ∧
        x' = { x with
          db := { x.db with lessonInteractions := lessonInteractions }
          config := Function.update x.config env.newID configJSON } ∧
        ∃ stored, configFromCreateProto config = .ok stored ∧
          (configJSON = stored ∨ ∃ key, configJSON = stored.setAudioObjectKey key) := by
  simp only [createManualInteraction] at h
  split at h
  · cases h
  · next hNew =>
    split at h
    · cases h
    · next configJSON hMade =>
      split at h
      · cases h
      · split at h
        · cases h
        · obtain ⟨lessonInteractions, hInsert, hEq⟩ := Option.map_eq_some_iff.mp h
          cases hEq
          refine ⟨by simpa using hNew, configJSON, lessonInteractions, hInsert, rfl, ?_⟩
          cases teacher with
          | error e => cases hMade
          | ok _ =>
            simp only [bind, Except.bind] at hMade
            cases hStored : configFromCreateProto config with
            | error e => rw [hStored] at hMade; cases hMade
            | ok stored =>
              rw [hStored] at hMade
              exact ⟨stored, rfl, maybeSynthesizeListeningAudio_cases hMade⟩

/-- A video that is set leaves no rows but those that were there. -/
theorem updateLessonVideo_cases {videoStorageKey : String} {durationSeconds : Int}
    (h : x.updateLessonVideo env commitFailure access lessonID videoStorageKey durationSeconds =
      .ok x') :
    ∃ db, x' = { x with
        videoStorageKey := Function.update x.videoStorageKey lessonID (some videoStorageKey)
        db := db } ∧ x.db.Narrows db := by
  unfold updateLessonVideo at h
  cases hExisting : orFailure env.failure (one (x.db.lessons.find lessonID)) with
  | error e => rw [hExisting] at h; cases h
  | ok existing =>
    obtain rfl : existing.id = lessonID :=
      Table.find_key (one_eq_ok.mp (orFailure_eq_ok.mp hExisting).2)
    rw [hExisting] at h
    cases access with
    | error e => cases h
    | ok _ =>
      cases commitFailure with
      | some e => cases h
      | none =>
        cases h
        refine ⟨_, rfl, ?_⟩
        have hDuration := narrows_setDuration existing.id x.db durationSeconds
        split
        · exact (hDuration.trans (narrows_deleteLessonAttempts existing.id _)).trans
            (narrows_deleteLessonInteractionsByLesson existing.id _)
        · exact hDuration

theorem updateWatchProgress_cases {positionFails : Option String}
    {req : UpdateWatchProgressRequest} {nowUnixMs : Int}
    (h : x.updateWatchProgress cfg env positionFails caller req nowUnixMs = .ok x') :
    x' = x ∨ ∃ userID durationSec, caller = .ok userID ∧
      x' = x.addWatchCoverage cfg userID req durationSec nowUnixMs := by
  unfold updateWatchProgress at h
  cases caller with
  | error e => cases h
  | ok userID =>
    cases positionFails with
    | some e => cases h
    | none =>
      simp only [bind, Except.bind] at h
      split at h
      · cases h
        exact .inr ⟨userID, _, rfl, rfl⟩
      · cases h
        exact .inl rfl

theorem deleteTempGrade_cases {kvFails : Bool} (h : x.deleteTempGrade kvFails = some x') :
    ∃ tempGrades background, x' = { x with tempGrades := tempGrades, background := background } ∧
      ∀ k t, tempGrades.find k = some t → x.tempGrades.find k = some t := by
  unfold deleteTempGrade at h
  split at h
  · cases h
  · cases h
    refine ⟨_, _, rfl, fun k t hFind => ?_⟩
    split at hFind
    · exact hFind
    · rw [Table.find_delete, Option.filter_eq_some_iff] at hFind
      exact hFind.1

end Cases

end Site

end Richter.Interactions
