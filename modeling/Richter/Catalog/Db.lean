import Richter.Courses.Content
import Richter.Lessons.UpdateLesson

/-! The tables of organizations, courses, modules and lessons, and the statements that write them
(`sql/queries/organizations.sql`, `courses.sql`, `course_modules.sql`, `lessons.sql`).  A row
belongs to one of the table before it, and goes with it. -/

namespace Richter.Catalog

open Lib
open Courses (CourseStatus)
open Lessons (LessonSettings)

inductive OrganizationStatus
  | active
  | suspended
  | archived
  deriving DecidableEq, Repr

/-- A row of `organizations`. -/
structure Organization where
  id : UUID
  createdBy : UUID
  name : String
  slug : String
  status : OrganizationStatus
  deriving DecidableEq

/-- A row of `courses`. -/
structure Course where
  id : UUID
  organizationId : UUID
  ownerId : UUID
  title : String
  description : Option String
  status : CourseStatus
  deriving DecidableEq

/-- A row of `course_modules`. -/
structure CourseModule where
  id : UUID
  courseId : UUID
  title : String
  orderIndex : Int
  deriving DecidableEq

/-- A row of `lessons`. -/
structure Lesson where
  id : UUID
  moduleId : UUID
  settings : LessonSettings
  feedbackMode : String
  videoStorageKey : Option String
  durationSeconds : Option Int
  defaultInteractionConfig : Option Json

/-- The tables, and with which parents there have ever been courses, modules and lessons. -/
structure Store where
  organizations : Table Organization Organization.id
  courses : Table Course Course.id
  courseModules : Table CourseModule CourseModule.id
  lessons : Table Lesson Lesson.id
  orgOfCourse : UUID → Option UUID
  courseOfModule : UUID → Option UUID
  moduleOfLesson : UUID → Option UUID

/-- The statements, and the transactions of `CreateOrganization` and `CreateCourse`, of which
nothing is seen before they are committed. -/
inductive Query
  | getCourseByID (id : UUID)
  | getCourseModuleByID (id : UUID)
  | getLessonByID (id : UUID)
  | getOrgIDByLessonID (lessonId : UUID)
  | createOrganization (createdBy : UUID) (name slug : String)
  | updateOrganization (id : UUID) (name slug : String)
  | updateOrganizationStatus (id : UUID) (status : OrganizationStatus)
  | deleteOrganization (id : UUID)
  | createCourse (organizationId ownerId : UUID) (title : String) (description : Option String)
  | updateCourse (id : UUID) (title : String) (description : Option String)
  | updateCourseStatus (id : UUID) (status : CourseStatus)
  | deleteCourse (id : UUID)
  | createCourseModule (courseId : UUID) (title : String) (orderIndex : Int)
  | updateCourseModule (id : UUID) (title : String) (orderIndex : Int)
  | deleteCourseModule (id : UUID)
  | createLesson (moduleId : UUID) (title : String) (description : Option String)
      (orderIndex maxAttempts : Int)
  | updateLesson (id : UUID) (settings : LessonSettings)
  | updateLessonVideo (id : UUID) (videoStorageKey : Option String) (durationSeconds : Option Int)
  | updateLessonFeedbackMode (id : UUID) (feedbackMode : String)
  | updateLessonDefaultInteractionConfig (id : UUID) (defaultInteractionConfig : Option Json)
  | deleteLesson (id : UUID)

abbrev Query.Result : Query → Type
  | .getCourseByID _ | .createCourse .. | .updateCourse .. | .updateCourseStatus .. => Course
  | .getCourseModuleByID _ | .createCourseModule .. | .updateCourseModule .. => CourseModule
  | .getLessonByID _ | .createLesson .. | .updateLesson .. | .updateLessonVideo ..
  | .updateLessonFeedbackMode .. | .updateLessonDefaultInteractionConfig .. => Lesson
  | .getOrgIDByLessonID _ => UUID
  | .createOrganization .. | .updateOrganization .. | .updateOrganizationStatus .. => Organization
  | .deleteOrganization _ | .deleteCourse _ | .deleteCourseModule _ | .deleteLesson _ => Nat

namespace Store

variable (x : Store)

/-- The organization of a lesson (`lessons JOIN course_modules JOIN courses`). -/
def orgOfLesson (id : UUID) : Option UUID :=
  (x.lessons.find id).bind fun l => (x.courseModules.find l.moduleId).bind fun m =>
    (x.courses.find m.courseId).map Course.organizationId

/-! Deleting: what belongs to a row goes with it. -/

def deleteLessons (p : Lesson → Bool) : Store := { x with lessons := x.lessons.delete p }

def deleteModules (p : CourseModule → Bool) : Store :=
  { x.deleteLessons (fun l => (x.courseModules.find l.moduleId).any p) with
    courseModules := x.courseModules.delete p }

def deleteCourses (p : Course → Bool) : Store :=
  { x.deleteModules (fun m => (x.courses.find m.courseId).any p) with
    courses := x.courses.delete p }

def deleteOrganizations (p : Organization → Bool) : Store :=
  { x.deleteCourses (fun c => (x.organizations.find c.organizationId).any p) with
    organizations := x.organizations.delete p }

/-! Updating the row with an id, which keeps its id. -/

def updateOrganization (id : UUID) (f : Organization → Organization) (hf : ∀ o, (f o).id = o.id) :
    Store :=
  { x with organizations := x.organizations.update (fun o => o.id = id) f hf }

def updateCourse (id : UUID) (f : Course → Course) (hf : ∀ c, (f c).id = c.id) : Store :=
  { x with courses := x.courses.update (fun c => c.id = id) f hf }

def updateModule (id : UUID) (f : CourseModule → CourseModule) (hf : ∀ m, (f m).id = m.id) :
    Store :=
  { x with courseModules := x.courseModules.update (fun m => m.id = id) f hf }

def updateLesson (id : UUID) (f : Lesson → Lesson) (hf : ∀ l, (f l).id = l.id) : Store :=
  { x with lessons := x.lessons.update (fun l => l.id = id) f hf }

/-! Inserting a row under a new id, when its parent is there. -/

def insertOrganization (o : Organization) : Except DbError Organization × Store :=
  if x.organizations.rows.any (fun o' => o'.slug = o.slug) then (.error (.pg "23505"), x)
  else match x.organizations.insert o with
    | none => (.error (.pg "23505"), x)
    | some organizations => (.ok o, { x with organizations := organizations })

def insertCourse (c : Course) : Except DbError Course × Store :=
  if (x.organizations.find c.organizationId).isNone then (.error (.pg "23503"), x)
  else match x.courses.insert c with
    | none => (.error (.pg "23505"), x)
    | some courses => (.ok c, { x with
        courses := courses
        orgOfCourse := Function.update x.orgOfCourse c.id (some c.organizationId) })

def insertModule (m : CourseModule) : Except DbError CourseModule × Store :=
  if (x.courses.find m.courseId).isNone then (.error (.pg "23503"), x)
  else match x.courseModules.insert m with
    | none => (.error (.pg "23505"), x)
    | some courseModules => (.ok m, { x with
        courseModules := courseModules
        courseOfModule := Function.update x.courseOfModule m.id (some m.courseId) })

def insertLesson (l : Lesson) : Except DbError Lesson × Store :=
  if (x.courseModules.find l.moduleId).isNone then (.error (.pg "23503"), x)
  else match x.lessons.insert l with
    | none => (.error (.pg "23505"), x)
    | some lessons => (.ok l, { x with
        lessons := lessons
        moduleOfLesson := Function.update x.moduleOfLesson l.id (some l.moduleId) })

end Store

/-- How many rows went with a key. -/
def rowsAffected {α : Type} (row : Option α) : Nat := if row.isSome then 1 else 0

/-- What a statement comes to when it does not fail for another reason, with the id that it makes
up. -/
def Query.apply (fresh : UUID) (x : Store) : (q : Query) → Except DbError q.Result × Store
  | .getCourseByID id => (one (x.courses.find id), x)
  | .getCourseModuleByID id => (one (x.courseModules.find id), x)
  | .getLessonByID id => (one (x.lessons.find id), x)
  | .getOrgIDByLessonID lessonId => (one (x.orgOfLesson lessonId), x)
  | .createOrganization createdBy name slug =>
      x.insertOrganization ⟨fresh, createdBy, name, slug, .active⟩
  | .updateOrganization id name slug =>
      if x.organizations.rows.any (fun o => o.slug = slug && o.id ≠ id) then
        (.error (.pg "23505"), x)
      else
        let y := x.updateOrganization id (fun o => { o with
          name := name
          slug := slug }) fun _ => rfl
        (one (y.organizations.find id), y)
  | .updateOrganizationStatus id status =>
      let y := x.updateOrganization id (fun o => { o with status := status }) fun _ => rfl
      (one (y.organizations.find id), y)
  | .deleteOrganization id =>
      (.ok (rowsAffected (x.organizations.find id)), x.deleteOrganizations fun o => o.id = id)
  | .createCourse organizationId ownerId title description =>
      x.insertCourse ⟨fresh, organizationId, ownerId, title, description, .draft⟩
  | .updateCourse id title description =>
      let y := x.updateCourse id (fun c => { c with
        title := title
        description := description }) fun _ => rfl
      (one (y.courses.find id), y)
  | .updateCourseStatus id status =>
      let y := x.updateCourse id (fun c => { c with status := status }) fun _ => rfl
      (one (y.courses.find id), y)
  | .deleteCourse id =>
      (.ok (rowsAffected (x.courses.find id)), x.deleteCourses fun c => c.id = id)
  | .createCourseModule courseId title orderIndex =>
      x.insertModule ⟨fresh, courseId, title, orderIndex⟩
  | .updateCourseModule id title orderIndex =>
      let y := x.updateModule id (fun m => { m with
        title := title
        orderIndex := orderIndex }) fun _ => rfl
      (one (y.courseModules.find id), y)
  | .deleteCourseModule id =>
      (.ok (rowsAffected (x.courseModules.find id)), x.deleteModules fun m => m.id = id)
  | .createLesson moduleId title description orderIndex maxAttempts =>
      x.insertLesson
        { id := fresh
          moduleId := moduleId
          settings := ⟨title, description, orderIndex, "vi", maxAttempts, ""⟩
          feedbackMode := "after_submit"
          videoStorageKey := none
          durationSeconds := none
          defaultInteractionConfig := none }
  | .updateLesson id settings =>
      let y := x.updateLesson id (fun l => { l with settings := settings }) fun _ => rfl
      (one (y.lessons.find id), y)
  | .updateLessonVideo id videoStorageKey durationSeconds =>
      let y := x.updateLesson id (fun l => { l with
        videoStorageKey := videoStorageKey
        durationSeconds := durationSeconds }) fun _ => rfl
      (one (y.lessons.find id), y)
  | .updateLessonFeedbackMode id feedbackMode =>
      let y := x.updateLesson id (fun l => { l with feedbackMode := feedbackMode }) fun _ => rfl
      (one (y.lessons.find id), y)
  | .updateLessonDefaultInteractionConfig id defaultInteractionConfig =>
      let y := x.updateLesson id (fun l => { l with
        defaultInteractionConfig := defaultInteractionConfig }) fun _ => rfl
      (one (y.lessons.find id), y)
  | .deleteLesson id =>
      (.ok (rowsAffected (x.lessons.find id)), x.deleteLessons fun l => l.id = id)

end Richter.Catalog
