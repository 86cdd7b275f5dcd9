import Richter.Catalog.Db
import Richter.Courses.Handlers
import Richter.Storage.Keys

/-! The requests that write organizations, courses, modules and lessons
(`internal/svc/organizations/organizations.go`, `courses/courses.go`,
`coursemodules/coursemodules.go`, `lessons/lesson_crud.go`, `lessons/lesson_video.go`, and
`ai/interaction_config.go` and `ai/reset.go`). -/

namespace Richter.Catalog

open Lib
open Courses (CourseStatus teacherRoles)
open Lessons (LessonSettings UpdateLessonRequest descToPgText updateLessonParams)
open Members (Claims OrganizationRole requireAuthenticated requireOrgRole)
open Storage (Texts validateLessonVideoKey)

/-- A statement on these tables, one of an access check, one on other tables, and the question
whether an object is in storage. -/
inductive Op
  | conn (q : Query)
  | members (o : Members.Op)
  | elsewhere
  | statObject (key : String)

abbrev Op.Resp : Op → Type
  | .conn q => Except DbError q.Result
  | .members o => o.Resp
  | .elsewhere => Except DbError Unit
  | .statObject _ => Bool

abbrev Handler := ExceptT Error (Prog Op Op.Resp)

def perform (o : Op) : Handler o.Resp := ExceptT.lift (Prog.perform o)

/-- A statement whose error goes through `ConnectDBError`. -/
def query (q : Query) : Handler q.Result := do
  match ← perform (.conn q) with
  | .ok a => return a
  | .error e => throw (connectDBError e)

/-- An access check. -/
def check {α : Type} (x : Members.Handler α) : Handler α :=
  ExceptT.mk (x.run.hoist Op.members fun _ => id)

/-- Some rows are gone, or there was none. -/
def orNotFound (message : String) (n : Nat) : Handler Unit :=
  if n = 0 then throw (.connect .notFound message) else pure ()

/-- `RequireSelf`. -/
def requireSelf (ctx : Option Claims) (userID : UUID) : Handler Claims := do
  let claims ← check (requireAuthenticated ctx)
  if claims.sub = userID ∨ claims.role = .admin then return claims
  else throw (.connect .permissionDenied "permission denied")

section Handlers

variable (T : Texts) (ctx : Option Claims)

/-! Organizations. -/

def createOrganization (createdBy : UUID) (name slug : String) : Handler Unit := do
  let _ ← requireSelf ctx createdBy
  let _ ← query (.createOrganization createdBy name slug)

def updateOrganization (id : UUID) (name slug : String) : Handler Unit := do
  let _ ← check (requireOrgRole ctx id [.admin, .owner])
  let _ ← query (.updateOrganization id name slug)

/-- `OrganizationStatusToSQL` fails for a status that is unspecified, which here is none. -/
def updateOrganizationStatus (id : UUID) (status : Option OrganizationStatus) : Handler Unit := do
  let _ ← check (requireOrgRole ctx id [.owner])
  match status with
  | none => throw (.connect .invalidArgument
      "invalid organization status: ORGANIZATION_STATUS_UNSPECIFIED")
  | some status => let _ ← query (.updateOrganizationStatus id status)

def deleteOrganization (id : UUID) : Handler Unit := do
  let _ ← check (requireOrgRole ctx id [.owner])
  orNotFound ("organization not found: " ++ T.uuidText id) (← query (.deleteOrganization id))

/-! Courses. -/

def createCourse (orgID : UUID) (title description : String) : Handler Unit := do
  let claims ← check (requireOrgRole ctx orgID teacherRoles)
  let _ ← query (.createCourse orgID claims.sub title (descToPgText description))

def updateCourse (id : UUID) (title description : String) : Handler Unit := do
  let existing ← query (.getCourseByID id)
  let _ ← check (requireOrgRole ctx existing.organizationId teacherRoles)
  let _ ← query (.updateCourse existing.id title (descToPgText description))

/-- `CourseStatusToSQL` fails for a status that is unspecified, which here is none. -/
def updateCourseStatus (id : UUID) (status : Option CourseStatus) : Handler Unit := do
  let existing ← query (.getCourseByID id)
  let _ ← check (requireOrgRole ctx existing.organizationId [.owner, .admin])
  match status with
  | none => throw (.connect .invalidArgument "invalid course status: COURSE_STATUS_UNSPECIFIED")
  | some status => let _ ← query (.updateCourseStatus existing.id status)

def deleteCourse (id : UUID) : Handler Unit := do
  let existing ← query (.getCourseByID id)
  let _ ← check (requireOrgRole ctx existing.organizationId [.owner, .admin])
  orNotFound ("course not found: " ++ T.uuidText existing.id) (← query (.deleteCourse existing.id))

/-! Modules. -/

def createCourseModule (courseID : UUID) (title : String) (orderIndex : Int) : Handler Unit := do
  let course ← query (.getCourseByID courseID)
  let _ ← check (requireOrgRole ctx course.organizationId teacherRoles)
  let _ ← query (.createCourseModule course.id title orderIndex)

def updateCourseModule (id : UUID) (title : String) (orderIndex : Int) : Handler Unit := do
  let existing ← query (.getCourseModuleByID id)
  let course ← query (.getCourseByID existing.courseId)
  let _ ← check (requireOrgRole ctx course.organizationId teacherRoles)
  let _ ← query (.updateCourseModule existing.id title orderIndex)

def deleteCourseModule (id : UUID) : Handler Unit := do
  let existing ← query (.getCourseModuleByID id)
  let course ← query (.getCourseByID existing.courseId)
  let _ ← check (requireOrgRole ctx course.organizationId teacherRoles)
  orNotFound ("course module not found: " ++ T.uuidText existing.id)
    (← query (.deleteCourseModule existing.id))

/-! Lessons. -/

/-- The lesson, for a teacher of its organization. -/
def fetchTaughtLesson (id : UUID) : Handler Lesson := do
  let existing ← query (.getLessonByID id)
  let module ← query (.getCourseModuleByID existing.moduleId)
  let course ← query (.getCourseByID module.courseId)
  let _ ← check (requireOrgRole ctx course.organizationId teacherRoles)
  return existing

def createLesson (moduleID : UUID) (title description : String) (orderIndex maxAttempts : Int) :
    Handler Unit := do
  let module ← query (.getCourseModuleByID moduleID)
  let course ← query (.getCourseByID module.courseId)
  let _ ← check (requireOrgRole ctx course.organizationId teacherRoles)
  let _ ← query (.createLesson module.id title (descToPgText description) orderIndex maxAttempts)

def updateLesson (id : UUID) (req : UpdateLessonRequest) : Handler Unit := do
  let existing ← fetchTaughtLesson ctx id
  let _ ← query (.updateLesson existing.id (updateLessonParams req existing.settings))

/-- `FeedbackModeFromProto`. -/
def feedbackModeFromProto : Courses.FeedbackMode → String
  | .hidden => "hidden"
  | .afterEach => "after_each"
  | .afterSubmit => "after_submit"

/-- `requireTeacherRole`, and the same check at the beginning of `UpdateLessonFeedbackMode`. -/
def requireTeacherRole (lessonID : UUID) : Handler Unit := do
  let orgID ← query (.getOrgIDByLessonID lessonID)
  let _ ← check (requireOrgRole ctx orgID teacherRoles)

def updateLessonFeedbackMode (lessonID : UUID) (mode : Courses.FeedbackMode) : Handler Unit := do
  requireTeacherRole ctx lessonID
  let _ ← query (.updateLessonFeedbackMode lessonID (feedbackModeFromProto mode))

def updateLessonDefaultInteractionConfig (lessonID : UUID) (config : Option Json) :
    Handler Unit := do
  requireTeacherRole ctx lessonID
  let _ ← query (.updateLessonDefaultInteractionConfig lessonID config)

/-- The list of the chunks is only for the clean-up, which here is left out.  The transaction also
clears the analysis of the video before. -/
def updateLessonVideo (id : UUID) (videoStorageKey : String) (durationSeconds : Int) :
    Handler Unit := do
  let existing ← fetchTaughtLesson ctx id
  match validateLessonVideoKey (T.uuidText existing.id) videoStorageKey with
  | .error e => throw (.connect .invalidArgument e.text)
  | .ok () =>
    if ← perform (.statObject videoStorageKey) then
      if existing.videoStorageKey.isSome then let _ ← perform .elsewhere
      let _ ← query (.updateLessonVideo existing.id (some videoStorageKey)
        (if 0 < durationSeconds then some durationSeconds else none))
    else throw (.connect .notFound "video file not found in storage")

def deleteLesson (id : UUID) : Handler Unit := do
  let existing ← fetchTaughtLesson ctx id
  let _ ← perform .elsewhere
  orNotFound ("lesson not found: " ++ T.uuidText existing.id) (← query (.deleteLesson existing.id))

/-- A statement on other tables, whose error goes through `ConnectDBError`. -/
def orConnectError (x : Except DbError Unit) : Handler Unit :=
  match x with
  | .ok () => pure ()
  | .error e => throw (connectDBError e)

/-- The objects, the interactions, chunks, attempts, analysis and tasks that go are not in these
tables. -/
def resetLessonContent (lessonID : UUID) : Handler Unit := do
  requireTeacherRole ctx lessonID
  let _ ← query (.getLessonByID lessonID)
  orConnectError (← perform .elsewhere)
  orConnectError (← perform .elsewhere)
  let _ ← query (.updateLessonVideo lessonID none none)

end Handlers

inductive Call
  | createOrganization (createdBy : UUID) (name slug : String)
  | updateOrganization (id : UUID) (name slug : String)
  | updateOrganizationStatus (id : UUID) (status : Option OrganizationStatus)
  | deleteOrganization (id : UUID)
  | createCourse (orgID : UUID) (title description : String)
  | updateCourse (id : UUID) (title description : String)
  | updateCourseStatus (id : UUID) (status : Option CourseStatus)
  | deleteCourse (id : UUID)
  | createCourseModule (courseID : UUID) (title : String) (orderIndex : Int)
  | updateCourseModule (id : UUID) (title : String) (orderIndex : Int)
  | deleteCourseModule (id : UUID)
  | createLesson (moduleID : UUID) (title description : String) (orderIndex maxAttempts : Int)
  | updateLesson (id : UUID) (req : UpdateLessonRequest)
  | updateLessonFeedbackMode (lessonID : UUID) (mode : Courses.FeedbackMode)
  | updateLessonDefaultInteractionConfig (lessonID : UUID) (config : Option Json)
  | updateLessonVideo (id : UUID) (videoStorageKey : String) (durationSeconds : Int)
  | deleteLesson (id : UUID)
  | resetLessonContent (lessonID : UUID)

def serve (T : Texts) (ctx : Option Claims) : Call → Handler Unit
  | .createOrganization createdBy name slug => createOrganization ctx createdBy name slug
  | .updateOrganization id name slug => updateOrganization ctx id name slug
  | .updateOrganizationStatus id status => updateOrganizationStatus ctx id status
  | .deleteOrganization id => deleteOrganization T ctx id
  | .createCourse orgID title description => createCourse ctx orgID title description
  | .updateCourse id title description => updateCourse ctx id title description
  | .updateCourseStatus id status => updateCourseStatus ctx id status
  | .deleteCourse id => deleteCourse T ctx id
  | .createCourseModule courseID title orderIndex =>
      createCourseModule ctx courseID title orderIndex
  | .updateCourseModule id title orderIndex => updateCourseModule ctx id title orderIndex
  | .deleteCourseModule id => deleteCourseModule T ctx id
  | .createLesson moduleID title description orderIndex maxAttempts =>
      createLesson ctx moduleID title description orderIndex maxAttempts
  | .updateLesson id req => updateLesson ctx id req
  | .updateLessonFeedbackMode lessonID mode => updateLessonFeedbackMode ctx lessonID mode
  | .updateLessonDefaultInteractionConfig lessonID config =>
      updateLessonDefaultInteractionConfig ctx lessonID config
  | .updateLessonVideo id videoStorageKey durationSeconds =>
      updateLessonVideo T ctx id videoStorageKey durationSeconds
  | .deleteLesson id => deleteLesson T ctx id
  | .resetLessonContent lessonID => resetLessonContent ctx lessonID

end Richter.Catalog
