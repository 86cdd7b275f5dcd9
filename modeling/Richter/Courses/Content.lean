import Richter.Interactions.Grading
import Richter.Interactions.Mapper
import Richter.Lessons.Analysis
import Richter.Members.Authz

/-! Courses and the content of their lessons, the statements that read them, and the messages that
the services make of them. -/

namespace Richter.Courses

open Lib
open Interactions (AttemptResponseInput FdbTempGradeCache Grade GradingDeps InteractionKind
  LessonInteractionMessage LessonInteractionRow Outcome ResponseJSON dbStringToKind)
open Lessons (LessonAnalysis LessonAnalysisStatus LessonAttempt Segment)
open TaskQueue (Task TaskTable Timestamptz)

inductive CourseStatus
  | draft
  | published
  | archived
  deriving DecidableEq, Repr

/-- The columns of `courses` that the access checks do not read. -/
structure CourseDetails where
  title : String
  description : Option String
  status : CourseStatus
  createdAt : Timestamptz
  updatedAt : Timestamptz
  deriving DecidableEq, Repr

/-- A row of `courses` with the column `can_access` that the lists of courses compute. -/
structure CourseWithAccess where
  course : Members.Course
  details : CourseDetails
  canAccess : Bool
  deriving DecidableEq, Repr

/-- A row of `course_modules`. -/
structure CourseModule where
  id : UUID
  courseId : UUID
  orderIndex : Int
  deriving DecidableEq

/-- A row of `lessons`. -/
structure Lesson where
  id : UUID
  moduleId : UUID
  title : String
  description : Option String
  orderIndex : Int
  videoStorageKey : Option String
  durationSeconds : Option Int
  feedbackMode : String
  language : String
  audioLanguage : String
  maxAttempts : Int
  defaultInteractionConfig : Option Json
  createdAt : Timestamptz
  updatedAt : Timestamptz

/-- A row of `lesson_transcript_chunks`. -/
structure LessonTranscriptChunk where
  id : UUID
  lessonId : UUID
  orderIndex : Int
  startSeconds : ℚ
  endSeconds : ℚ
  summary : String
  questionCountConfig : Int
  interactionConfig : Option Json

/-- The tables of Postgres with the lower case of its locale, and the records of FoundationDB. -/
structure Store where
  members : Members.Db
  courseDetails : UUID → CourseDetails
  lower : String → String
  courseModules : Table CourseModule CourseModule.id
  lessons : Table Lesson Lesson.id
  lessonTranscriptChunks : Table LessonTranscriptChunk LessonTranscriptChunk.id
  lessonInteractions : Table LessonInteractionRow LessonInteractionRow.id
  tasks : TaskTable
  lessonAnalyses : UUID → Option LessonAnalysis
  lessonAttempts : List LessonAttempt
  transcripts : UUID → Option String
  segments : UUID → Option (List Segment)

inductive Query
  | getCourseAccessInfoByLessonID (lessonId : UUID)
  | getOrgIDByLessonID (lessonId : UUID)
  | getCourseModuleByID (id : UUID)
  | getLessonByID (id : UUID)
  | listLessons (moduleId : UUID) (limit offset : Nat)
  | listLessonsByCourse (courseId : UUID) (limit offset : Nat)
  | listLessonTranscriptChunks (lessonId : UUID) (limit offset : Nat)
  | listLessonInteractions (lessonId : UUID) (limit offset : Nat)
  | getLessonInteractionByID (id : UUID)
  | listLatestTaskPerLesson (lessonId : UUID)
  | getLessonAnalysis (lessonId : UUID)
  | getMyLessonAttempt (lessonId userId : UUID)
  | listCoursesWithAccess (organizationId ownerId : UUID) (limit offset : Nat)
  | listCoursesWithAccessAndStatus (organizationId ownerId : UUID) (status : CourseStatus)
      (limit offset : Nat)
  | listCoursesWithAccessAndTitleFilter (organizationId ownerId : UUID) (q : String)
      (limit offset : Nat)
  | listCoursesWithAccessExcludingDraft (organizationId ownerId : UUID) (limit offset : Nat)
  | listCoursesWithAccessAndTitleFilterExcludingDraft (organizationId ownerId : UUID) (q : String)
      (limit offset : Nat)

abbrev Query.Result : Query → Type
  | .getCourseAccessInfoByLessonID _ => Members.Course
  | .getOrgIDByLessonID _ => UUID
  | .getCourseModuleByID _ => CourseModule
  | .getLessonByID _ => Lesson
  | .listLessons .. | .listLessonsByCourse .. => List Lesson
  | .listLessonTranscriptChunks .. => List LessonTranscriptChunk
  | .listLessonInteractions .. => List LessonInteractionRow
  | .getLessonInteractionByID _ => LessonInteractionRow
  | .listLatestTaskPerLesson _ => List Task
  | .getLessonAnalysis _ => LessonAnalysis
  | .getMyLessonAttempt .. => LessonAttempt
  | .listCoursesWithAccess .. | .listCoursesWithAccessAndStatus ..
  | .listCoursesWithAccessAndTitleFilter .. | .listCoursesWithAccessExcludingDraft ..
  | .listCoursesWithAccessAndTitleFilterExcludingDraft .. => List CourseWithAccess

/-- `LIKE`, of a pattern and a text. -/
def like : List Char → List Char → Bool
  | [], text => text.isEmpty
  | '%' :: pattern, text => text.tails.any (like pattern)
  | '_' :: pattern, text =>
    match text with
    | [] => false
    | _ :: text => like pattern text
  | '\\' :: c :: pattern, text =>
    match text with
    | [] => false
    | a :: text => a = c && like pattern text
  | c :: pattern, text =>
    match text with
    | [] => false
    | a :: text => a = c && like pattern text

namespace Store

variable (x : Store)

/-- The module of a lesson. -/
def moduleOf (lessonId : UUID) : Option CourseModule :=
  (x.lessons.find lessonId).bind fun l => x.courseModules.find l.moduleId

/-- The course of a lesson (`lessons JOIN course_modules JOIN courses`). -/
def courseOf (lessonId : UUID) : Option Members.Course :=
  (x.moduleOf lessonId).bind fun m => x.members.courses.find m.courseId

/-- `ListLessons`, without its limit and offset. -/
def lessonsOf (moduleId : UUID) : List Lesson :=
  (x.lessons.rows.filter fun l => l.moduleId = moduleId).insertionSort
    fun a b => a.orderIndex < b.orderIndex ∨ (a.orderIndex = b.orderIndex ∧ a.id ≤ b.id)

/-- `ListLessonsByCourse`, without its limit and offset. -/
def lessonsOfCourse (courseId : UUID) : List Lesson :=
  let joined := x.lessons.rows.filterMap fun l =>
    (x.courseModules.find l.moduleId).map fun m => (m, l)
  ((joined.filter fun p => p.1.courseId = courseId).insertionSort fun a b =>
    a.1.orderIndex < b.1.orderIndex ∨ (a.1.orderIndex = b.1.orderIndex ∧
      (a.2.orderIndex < b.2.orderIndex ∨
        (a.2.orderIndex = b.2.orderIndex ∧ a.2.id ≤ b.2.id)))).map Prod.snd

/-- `ListLessonTranscriptChunks`, without its limit and offset. -/
def chunksOf (lessonId : UUID) : List LessonTranscriptChunk :=
  (x.lessonTranscriptChunks.rows.filter fun c => c.lessonId = lessonId).insertionSort
    fun a b => a.orderIndex ≤ b.orderIndex

/-- `ListLessonInteractions`, without its limit and offset. -/
def interactionsOf (lessonId : UUID) : List LessonInteractionRow :=
  (x.lessonInteractions.rows.filter fun i => i.lessonId = lessonId).insertionSort
    fun a b => a.orderIndex < b.orderIndex ∨ (a.orderIndex = b.orderIndex ∧ a.id ≤ b.id)

/-- The select lists' `can_access`, of a course joined with the user's membership of it. -/
def canAccess (userId : UUID) (course : Members.Course) (cm : Option Members.CourseMember) : Bool :=
  cm.isSome || course.ownerId = userId ||
    x.members.organizationMembers.rows.any fun om =>
      om.organizationId = course.organizationId && om.userId = userId && om.status = .active &&
        (om.role = .owner || om.role = .admin)

/-- `title ILIKE '%' || q || '%'`. -/
def titleMatches (q : String) (id : UUID) : Bool :=
  like (x.lower ("%" ++ q ++ "%")).toList (x.lower (x.courseDetails id).title).toList

/-- `ORDER BY created_at DESC, id DESC`. -/
def listedBefore (a b : Members.Course) : Prop :=
  (x.courseDetails b.id).createdAt < (x.courseDetails a.id).createdAt ∨
    ((x.courseDetails a.id).createdAt = (x.courseDetails b.id).createdAt ∧ b.id ≤ a.id)

instance : DecidableRel x.listedBefore := fun _ _ => inferInstanceAs (Decidable (_ ∨ _))

/-- The list of an organization's courses that meet a condition, for a user, without its limit and
offset. -/
def coursesWithAccess (organizationId userId : UUID)
    (p : Members.Course → Option Members.CourseMember → Bool) : List CourseWithAccess :=
  let joined := leftJoin (fun (c : Members.Course) (cm : Members.CourseMember) =>
    cm.courseId = c.id && cm.userId = userId) x.members.courses.rows x.members.courseMembers.rows
  ((joined.filter fun j => j.1.organizationId = organizationId && p j.1 j.2).insertionSort
    fun a b => x.listedBefore a.1 b.1).map fun j =>
      ⟨j.1, x.courseDetails j.1.id, x.canAccess userId j.1 j.2⟩

/-- The condition that leaves out drafts. -/
def visible (userId : UUID) (course : Members.Course) (cm : Option Members.CourseMember) : Bool :=
  (x.courseDetails course.id).status ≠ .draft || x.canAccess userId course cm

def listCoursesWithAccess (organizationId ownerId : UUID) : List CourseWithAccess :=
  x.coursesWithAccess organizationId ownerId fun _ _ => true

def listCoursesWithAccessAndStatus (organizationId ownerId : UUID) (status : CourseStatus) :
    List CourseWithAccess :=
  x.coursesWithAccess organizationId ownerId fun c _ => (x.courseDetails c.id).status = status

def listCoursesWithAccessAndTitleFilter (organizationId ownerId : UUID) (q : String) :
    List CourseWithAccess :=
  x.coursesWithAccess organizationId ownerId fun c _ => x.titleMatches q c.id

def listCoursesWithAccessExcludingDraft (organizationId ownerId : UUID) : List CourseWithAccess :=
  x.coursesWithAccess organizationId ownerId (x.visible ownerId)

def listCoursesWithAccessAndTitleFilterExcludingDraft (organizationId ownerId : UUID)
    (q : String) : List CourseWithAccess :=
  x.coursesWithAccess organizationId ownerId fun c cm =>
    x.titleMatches q c.id && x.visible ownerId c cm

end Store

/-- What a statement answers. -/
def Query.answer (x : Store) : (q : Query) → Except DbError q.Result
  | .getCourseAccessInfoByLessonID lessonId => one (x.courseOf lessonId)
  | .getOrgIDByLessonID lessonId => one ((x.courseOf lessonId).map (·.organizationId))
  | .getCourseModuleByID id => one (x.courseModules.find id)
  | .getLessonByID id => one (x.lessons.find id)
  | .listLessons moduleId limit offset => .ok (page limit offset (x.lessonsOf moduleId))
  | .listLessonsByCourse courseId limit offset =>
      .ok (page limit offset (x.lessonsOfCourse courseId))
  | .listLessonTranscriptChunks lessonId limit offset =>
      .ok (page limit offset (x.chunksOf lessonId))
  | .listLessonInteractions lessonId limit offset =>
      .ok (page limit offset (x.interactionsOf lessonId))
  | .getLessonInteractionByID id => one (x.lessonInteractions.find id)
  | .listLatestTaskPerLesson lessonId => .ok (Lessons.listLatestTaskPerLesson lessonId x.tasks)
  | .getLessonAnalysis lessonId => one (x.lessonAnalyses lessonId)
  | .getMyLessonAttempt lessonId userId =>
      one (x.lessonAttempts.find? fun a => a.lessonId = lessonId && a.userId = userId)
  | .listCoursesWithAccess organizationId ownerId limit offset =>
      .ok (page limit offset (x.listCoursesWithAccess organizationId ownerId))
  | .listCoursesWithAccessAndStatus organizationId ownerId status limit offset =>
      .ok (page limit offset (x.listCoursesWithAccessAndStatus organizationId ownerId status))
  | .listCoursesWithAccessAndTitleFilter organizationId ownerId q limit offset =>
      .ok (page limit offset (x.listCoursesWithAccessAndTitleFilter organizationId ownerId q))
  | .listCoursesWithAccessExcludingDraft organizationId ownerId limit offset =>
      .ok (page limit offset (x.listCoursesWithAccessExcludingDraft organizationId ownerId))
  | .listCoursesWithAccessAndTitleFilterExcludingDraft organizationId ownerId q limit offset =>
      .ok (page limit offset
        (x.listCoursesWithAccessAndTitleFilterExcludingDraft organizationId ownerId q))

/-! Messages. -/

inductive FeedbackMode
  | afterSubmit
  | hidden
  | afterEach
  deriving DecidableEq, Repr

/-- `FeedbackModeToProto`. -/
def feedbackModeToProto : String → FeedbackMode
  | "hidden" => .hidden
  | "after_each" => .afterEach
  | _ => .afterSubmit

/-- The message `Lesson`. -/
structure LessonMessage where
  id : UUID
  moduleId : UUID
  title : String
  description : String
  orderIndex : Int
  videoStorageKey : String
  durationSeconds : Int
  feedbackMode : FeedbackMode
  language : String
  audioLanguage : String
  maxAttempts : Int
  createdAt : Timestamptz
  updatedAt : Timestamptz
  deriving DecidableEq

/-- `LessonToProto`. -/
def lessonToProto (l : Lesson) : LessonMessage where
  id := l.id
  moduleId := l.moduleId
  title := l.title
  description := l.description.getD ""
  orderIndex := l.orderIndex
  videoStorageKey := l.videoStorageKey.getD ""
  durationSeconds := l.durationSeconds.getD 0
  feedbackMode := feedbackModeToProto l.feedbackMode
  language := l.language
  audioLanguage := l.audioLanguage
  maxAttempts := l.maxAttempts
  createdAt := l.createdAt
  updatedAt := l.updatedAt

inductive GenerationStrategy
  | unspecified
  | aiChoose
  | evenDistribution
  deriving DecidableEq, Repr

/-- The message `ChunkInteractionConfig`. -/
structure ChunkInteractionConfig where
  count : Int
  kinds : List InteractionKind
  strategy : GenerationStrategy
  deriving DecidableEq

structure InteractionConfigJSON where
  count : Int := 0
  kinds : Slice String := .nil
  strategy : String := ""

def interactionConfigJSON : Decoder InteractionConfigJSON :=
  .struct [
    .of "count" (.int 32) (·.count) fun c x => { c with count := x },
    .of "kinds" Interactions.Unmarshal.strings (·.kinds) fun c x => { c with kinds := x },
    .of "strategy" .string (·.strategy) fun c x => { c with strategy := x }]

def strategyFromString : String → GenerationStrategy
  | "ai_choose" => .aiChoose
  | "even" => .evenDistribution
  | _ => .unspecified

/-- A configuration of the generation, by the kinds that strings stand for.  There is none when it
is missing, does not decode or says nothing. -/
def decodeInteractionConfig (kindOf : String → InteractionKind) (data : Option Json) :
    Option ChunkInteractionConfig := do
  let raw ← interactionConfigJSON {} (← data)
  if raw.count = 0 ∧ raw.kinds.elems = [] ∧ raw.strategy = "" then none
  else
    return {
      count := raw.count
      kinds := (raw.kinds.elems.map kindOf).filter fun k => k ≠ .unspecified
      strategy := strategyFromString raw.strategy }

/-- `interactionConfigFromJSON` of the package `ai`. -/
def interactionConfigFromJSON : Option Json → Option ChunkInteractionConfig :=
  decodeInteractionConfig dbStringToKind

/-- `parseInteractionConfig` of the package `transcript`, which knows other names of the kinds. -/
def parseInteractionConfig : Option Json → Option ChunkInteractionConfig :=
  decodeInteractionConfig fun
    | "single_choice" => .singleChoice
    | "fill_blank" => .fillBlank
    | "listening" => .listening
    | "reading" => .reading
    | _ => .unspecified

/-- The message `TranscriptChunk`. -/
structure TranscriptChunk where
  id : UUID
  lessonId : UUID
  orderIndex : Int
  startSeconds : ℚ
  endSeconds : ℚ
  summary : String
  questionCountConfig : Int
  interactionConfig : Option ChunkInteractionConfig
  deriving DecidableEq

/-- `chunkToProto`, with the package's decoder of the configuration. -/
def chunkToProto (config : Option Json → Option ChunkInteractionConfig)
    (c : LessonTranscriptChunk) : TranscriptChunk where
  id := c.id
  lessonId := c.lessonId
  orderIndex := c.orderIndex
  startSeconds := c.startSeconds
  endSeconds := c.endSeconds
  summary := c.summary
  questionCountConfig := c.questionCountConfig
  interactionConfig := config c.interactionConfig

/-- The message `LessonAnalysis`. -/
structure LessonAnalysisMessage where
  lessonId : UUID
  status : LessonAnalysisStatus
  errorMsg : String
  transcript : String
  interactions : List LessonInteractionMessage
  transcriptSegments : List Segment
  defaultInteractionConfig : Option ChunkInteractionConfig
  deriving DecidableEq

/-- `analysisToProto`. -/
def analysisToProto (a : LessonAnalysis) (ints : List LessonInteractionRow) (stripAnswers : Bool)
    (transcript : String) (segments : List Segment)
    (defaultCfg : Option ChunkInteractionConfig) : LessonAnalysisMessage where
  lessonId := a.lessonId
  status := a.status
  errorMsg := a.errorMsg.getD ""
  transcript := transcript
  interactions := ints.map fun i => Interactions.interactionToProto i stripAnswers
  transcriptSegments := segments
  defaultInteractionConfig := defaultCfg

/-- `normalizeGeneratedInteractionStartSeconds`. -/
def normalizeGeneratedInteractionStartSeconds (ints : List LessonInteractionRow)
    (chunks : List LessonTranscriptChunk) : List LessonInteractionRow :=
  ints.map fun i =>
    if i.generatedBy ≠ "ai" ∨ 0 < i.startSeconds then i
    else
      match i.chunkId.bind fun id => chunks.find? fun c => 0 < c.endSeconds ∧ c.id = id with
      | some c => { i with startSeconds := c.endSeconds }
      | none => i

/-- `ShouldStripAnswers`. -/
def shouldStripAnswers (feedbackMode : String) (isTeacher hasSubmitted : Bool) : Bool :=
  if isTeacher then false
  else
    match feedbackMode with
    | "hidden" => true
    | "after_each" => false
    | _ => !hasSubmitted

end Richter.Courses
