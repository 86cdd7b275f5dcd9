import Richter.Courses.Content
import Richter.Interactions.Site
import Richter.Members.Access

/-! The requests that read the content of a lesson: `GetLessonById`, `ListLessons` and
`ListLessonsByCourse` of the lessons service, `GetLessonAnalysis` and `ListLessonTranscriptChunks`
of the AI service, and `ListLessonInteractions` and `PreviewGrade` of the interactions service.
Each has an access check of its own choice. -/

namespace Richter.Courses

open Lib
open Interactions (AttemptResponseInput FdbTempGradeCache Grade GradingDeps LessonInteractionMessage
  LessonInteractionRow Outcome ResponseJSON dbStringToKind interactionToProto responseProtoToJSON)
open Lessons (Segment deriveAnalysisFromTasks applyArtifactFloor transcriptInvalidated trimSpace)
open Members (Claims OrganizationRole requireAuthenticated requireCourseMember requireOrgMember
  requireOrgRole)
open TaskQueue (Timestamptz)

/-- What a handler does: a statement on a connection, the statements of an access check, and the
accesses to the clock, to FoundationDB and to a grader. -/
inductive Op
  | conn (q : Query)
  | members (o : Members.Op)
  | now
  | loadTranscript (lessonId : UUID)
  | loadSegments (lessonId : UUID)
  | grade (interaction : LessonInteractionRow) (response : ResponseJSON)
  | setTempGrade (userId lessonId interactionId : UUID) (cache : FdbTempGradeCache)

abbrev Op.Resp : Op → Type
  | .conn q => Except DbError q.Result
  | .members o => o.Resp
  | .now => Timestamptz
  | .loadTranscript _ => String
  | .loadSegments _ => List Segment
  | .grade .. => Option Grade
  | .setTempGrade .. => Unit

/-- What the environment decides about an operation: whether a statement or FoundationDB fails, the
time, and what the grading dependencies and an AI model come to. -/
structure Env where
  failure : Option DbError := none
  kvFails : Bool := false
  now : Timestamptz := 0
  deps : GradingDeps := .unset
  outcome : Outcome := .failed

/-- What an operation answers.  That a grade is cached changes nothing that these requests read. -/
def answer (x : Store) (env : Env) : (o : Op) → o.Resp
  | .conn q =>
    match env.failure with
    | some e => .error e
    | none => q.answer x
  | .members o => Members.answer x.members env.failure o
  | .now => env.now
  | .loadTranscript lessonId =>
      if env.kvFails then "" else trimSpace ((x.transcripts lessonId).getD "")
  | .loadSegments lessonId => if env.kvFails then [] else (x.segments lessonId).getD []
  | .grade interaction response =>
      let kind := dbStringToKind interaction.kind
      (Interactions.unmarshalConfig kind interaction.config).bind fun cfg =>
        Interactions.gradeSingleResponse env.deps env.outcome kind cfg response
  | .setTempGrade .. => ()

abbrev Handler := ExceptT Error (Prog Op Op.Resp)

def perform (o : Op) : Handler o.Resp := ExceptT.lift (Prog.perform o)

/-- `db.WithConnection` around one statement. -/
def query (q : Query) : Handler (Except DbError q.Result) := perform (.conn q)

/-- A statement whose error goes through `ConnectDBError`. -/
def fetch (q : Query) : Handler q.Result := do
  match ← query q with
  | .ok a => return a
  | .error e => throw (connectDBError e)

/-- An access check. -/
def check {α : Type} (x : Members.Handler α) : Handler α :=
  ExceptT.mk (x.run.hoist Op.members fun _ => id)

/-- Whether an access check passes. -/
def passes {α : Type} (x : Members.Handler α) : Handler Bool := do
  match ← ExceptT.lift (check x).run with
  | .ok _ => return true
  | .error _ => return false

/-- `RequireCourseMemberByLesson`. -/
def requireCourseMemberByLesson (ctx : Option Claims) (lessonID : UUID) : Handler Claims := do
  let claims ← check (requireAuthenticated ctx)
  if claims.role = .admin then return claims
  match ← query (.getCourseAccessInfoByLessonID lessonID) with
  | .error .noRows => throw (.connect .permissionDenied "lesson not found or access denied")
  | .error _ => throw (.connect .internal "internal error")
  | .ok info => check (requireCourseMember ctx info.id)

def teacherRoles : List OrganizationRole := [.owner, .admin, .teacher]

section Lessons

variable (ctx : Option Claims)

def getLessonById (lessonID : UUID) : Handler LessonMessage := do
  let _ ← requireCourseMemberByLesson ctx lessonID
  return lessonToProto (← fetch (.getLessonByID lessonID))

def listLessons (moduleID : UUID) (limit offset : Nat) : Handler (List LessonMessage) := do
  let module ← fetch (.getCourseModuleByID moduleID)
  let _ ← check (requireCourseMember ctx module.courseId)
  return (← fetch (.listLessons moduleID limit offset)).map lessonToProto

def listLessonsByCourse (courseID : UUID) (limit offset : Nat) : Handler (List LessonMessage) := do
  let _ ← check (requireCourseMember ctx courseID)
  return (← fetch (.listLessonsByCourse courseID limit offset)).map lessonToProto

end Lessons

/-- The limits of the lists in an analysis. -/
structure AiCfg where
  chunksLimit : Nat
  interactionsLimit : Nat
  deriving DecidableEq, Repr

section Ai

variable (cfg : AiCfg) (ctx : Option Claims)

/-- `List` of the package `transcript`. -/
def listLessonTranscriptChunks (lessonID : UUID) (limit offset : Nat) :
    Handler (List TranscriptChunk) := do
  let orgID ← fetch (.getOrgIDByLessonID lessonID)
  let _ ← check (requireOrgMember ctx orgID)
  let limit := if limit = 0 then 500 else limit
  return (← fetch (.listLessonTranscriptChunks lessonID limit offset)).map
    (chunkToProto parseInteractionConfig)

/-- The rows of a list, or none when the statement fails. -/
def orEmpty {α : Type} : Except DbError (List α) → List α
  | .ok rows => rows
  | .error _ => []

/-- The analysis by the tasks; without tasks, the row of the old table, or a pending analysis of a
lesson that has a video. -/
def derivedAnalysis (lesson : Lesson) (latest : List TaskQueue.Task) :
    Handler (Option Lessons.LessonAnalysis) :=
  if latest = [] then do
    match ← query (.getLessonAnalysis lesson.id) with
    | .ok analysis => return some analysis
    | .error .noRows =>
      if lesson.videoStorageKey.getD "" ≠ "" then return some ⟨lesson.id, .pending, none⟩
      else return none
    | .error e => throw (connectDBError e)
  else return some (deriveAnalysisFromTasks lesson.id latest)

/-- The transcript and the segments, which are shown with some statuses only. -/
def loadTranscript (status : Lessons.LessonAnalysisStatus) (lessonID : UUID) :
    Handler (String × List Segment) :=
  if status.hasTranscript then do
    let transcript ← perform (.loadTranscript lessonID)
    let segments ← perform (.loadSegments lessonID)
    return (transcript, segments)
  else return ("", [])

/-- Whether a caller who is no teacher has submitted an attempt, as far as it can be read. -/
def hasSubmitted (isTeacher : Bool) (lessonID : UUID) : Handler Bool :=
  if isTeacher then return false
  else do
    match ← ExceptT.lift (check (requireAuthenticated ctx)).run with
    | .error _ => return false
    | .ok claims =>
      match ← query (.getMyLessonAttempt lessonID claims.sub) with
      | .ok _ => return true
      | .error _ => return false

/-- The answer of `GetLessonAnalysis`, which is empty for a lesson without a video. -/
abbrev AnalysisResponse := Option (LessonAnalysisMessage × List TranscriptChunk)

/-- `GetLessonAnalysis`, from the analysis that the tasks or the old table have given. -/
def showAnalysis (orgID : UUID) (lesson : Lesson) (latest : List TaskQueue.Task)
    (analysis : Lessons.LessonAnalysis) : Handler AnalysisResponse := do
  let ints := orEmpty (← query (.listLessonInteractions lesson.id cfg.interactionsLimit 0))
  let chunks := orEmpty (← query (.listLessonTranscriptChunks lesson.id cfg.chunksLimit 0))
  let ints := normalizeGeneratedInteractionStartSeconds ints chunks
  let now ← perform .now
  let status := if latest = [] then analysis.status
    else applyArtifactFloor now analysis.status latest (!chunks.isEmpty) (!ints.isEmpty)
  let blank := transcriptInvalidated latest || (latest = [] && status = .error)
  let ints := if blank then [] else ints
  let chunks := if blank then [] else chunks
  let texts ← loadTranscript status lesson.id
  let isTeacher ← passes (requireOrgRole ctx orgID teacherRoles)
  let hasSubmitted ← hasSubmitted ctx isTeacher lesson.id
  let strip := shouldStripAnswers lesson.feedbackMode isTeacher hasSubmitted
  return some (analysisToProto { analysis with status := status } ints strip texts.1 texts.2
      (interactionConfigFromJSON lesson.defaultInteractionConfig),
    chunks.map (chunkToProto interactionConfigFromJSON))

def getLessonAnalysis (lessonID : UUID) : Handler AnalysisResponse := do
  let _ ← requireCourseMemberByLesson ctx lessonID
  let courseInfo ← fetch (.getCourseAccessInfoByLessonID lessonID)
  let lesson ← fetch (.getLessonByID lessonID)
  let latest ← fetch (.listLatestTaskPerLesson lessonID)
  match ← derivedAnalysis lesson latest with
  | none => return none
  | some analysis => showAnalysis cfg ctx courseInfo.organizationId lesson latest analysis

end Ai

section Interactions

variable (ctx : Option Claims)

/-- Whether the caller is a teacher of the organization; others have to be members of it. -/
def requireTeacherOrMember (orgID : UUID) : Handler Bool := do
  if ← passes (requireOrgRole ctx orgID teacherRoles) then return true
  else
    let _ ← check (requireOrgMember ctx orgID)
    return false

def listLessonInteractions (lessonID : UUID) (limit offset : Nat) :
    Handler (List LessonInteractionMessage) := do
  let orgID ← fetch (.getOrgIDByLessonID lessonID)
  let isTeacher ← requireTeacherOrMember ctx orgID
  let limit := if limit = 0 then 500 else limit
  return (← fetch (.listLessonInteractions lessonID limit offset)).map fun r =>
    interactionToProto r !isTeacher

structure SingleGradeTarget where
  orgID : UUID
  lesson : Lesson
  interaction : LessonInteractionRow
  responseJSON : ResponseJSON

/-- `lookupSingleGradeTarget`. -/
def lookupSingleGradeTarget (lessonID : UUID) (respInput : Option AttemptResponseInput) :
    Handler SingleGradeTarget := do
  match respInput with
  | none => throw (.connect .invalidArgument "response required")
  | some input =>
    let orgID ← fetch (.getOrgIDByLessonID lessonID)
    let lesson ← fetch (.getLessonByID lessonID)
    let interaction ← fetch (.getLessonInteractionByID input.interactionId)
    if interaction.lessonId ≠ lessonID then
      throw (.connect .invalidArgument "interaction does not belong to lesson")
    else
      match responseProtoToJSON (dbStringToKind interaction.kind) with
      | none => throw (.connect .unimplemented
          ("no handler for interaction kind \"" ++ interaction.kind ++ "\""))
      | some toJSON =>
        match toJSON input.response with
        | .error e => throw e
        | .ok responseJSON => return ⟨orgID, lesson, interaction, responseJSON⟩

/-- A response is graded before the submission only when its feedback comes after each, but for the
teachers of the organization. -/
def requirePreview (target : SingleGradeTarget) : Handler Unit :=
  if target.lesson.feedbackMode = "after_each" then return ()
  else do
    if ← passes (requireOrgRole ctx target.orgID teacherRoles) then return ()
    else throw (.connect .failedPrecondition
      "preview grading only allowed when feedback_mode is after_each")

/-- `PreviewGrade`, of a service whose grades are cached (`kv`). -/
def previewGrade (kv : Bool) (lessonID : UUID) (respInput : Option AttemptResponseInput) :
    Handler Grade := do
  let claims ← check (requireAuthenticated ctx)
  let target ← lookupSingleGradeTarget lessonID respInput
  let _ ← requireCourseMemberByLesson ctx lessonID
  requirePreview ctx target
  match ← perform (.grade target.interaction target.responseJSON) with
  | none => return Interactions.pendingGrade
  | some result =>
    if kv then
      perform (.setTempGrade claims.sub lessonID target.interaction.id
        ⟨Interactions.goLayout.text target.responseJSON, result⟩)
    return result

end Interactions

/-- A request that reads content. -/
inductive Call
  | getLessonById (lessonID : UUID)
  | listLessons (moduleID : UUID) (limit offset : Nat)
  | listLessonsByCourse (courseID : UUID) (limit offset : Nat)
  | getLessonAnalysis (lessonID : UUID)
  | listLessonTranscriptChunks (lessonID : UUID) (limit offset : Nat)
  | listLessonInteractions (lessonID : UUID) (limit offset : Nat)
  | previewGrade (lessonID : UUID) (respInput : Option AttemptResponseInput)

inductive Reply
  | lesson (lesson : LessonMessage)
  | lessons (lessons : List LessonMessage)
  | analysis (response : AnalysisResponse)
  | chunks (chunks : List TranscriptChunk)
  | interactions (interactions : List LessonInteractionMessage)
  | grade (grade : Grade)
  deriving DecidableEq

structure Cfg where
  ai : AiCfg
  kv : Bool
  deriving DecidableEq, Repr

def handle (cfg : Cfg) (ctx : Option Claims) : Call → Handler Reply
  | .getLessonById lessonID => do return .lesson (← getLessonById ctx lessonID)
  | .listLessons moduleID limit offset => do
      return .lessons (← listLessons ctx moduleID limit offset)
  | .listLessonsByCourse courseID limit offset => do
      return .lessons (← listLessonsByCourse ctx courseID limit offset)
  | .getLessonAnalysis lessonID => do return .analysis (← getLessonAnalysis cfg.ai ctx lessonID)
  | .listLessonTranscriptChunks lessonID limit offset => do
      return .chunks (← listLessonTranscriptChunks ctx lessonID limit offset)
  | .listLessonInteractions lessonID limit offset => do
      return .interactions (← listLessonInteractions ctx lessonID limit offset)
  | .previewGrade lessonID respInput => do
      return .grade (← previewGrade ctx cfg.kv lessonID respInput)

/-- What a caller is answered. -/
def reply (cfg : Cfg) (ctx : Option Claims) (call : Call) (env : Nat → Env) (x : Store) :
    Except Error Reply :=
  (handle cfg ctx call).run.eval (answer x) env

end Richter.Courses
