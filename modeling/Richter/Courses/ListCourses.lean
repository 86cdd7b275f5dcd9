import Richter.Courses.Confinement

/-! `ListCourses`: the courses of an organization, each with whether the caller may open it.  The
lists decide this in SQL, by the rows about the caller, and the access check of the course decides
it in the handlers, where a system admin passes without any row. -/

namespace Richter.Courses

open Lib
open Members (Claims CourseMember requireCourseMember requireOrgMember)
open TaskQueue (Timestamptz)

/-- The enumeration `CourseStatus` of the messages, which is open. -/
inductive CourseStatusMessage
  | unspecified
  | draft
  | published
  | archived
  | unrecognized (number : Int)
  deriving DecidableEq, Repr

/-- `CourseStatus.String`. -/
def CourseStatusMessage.text : CourseStatusMessage → String
  | .unspecified => "COURSE_STATUS_UNSPECIFIED"
  | .draft => "COURSE_STATUS_DRAFT"
  | .published => "COURSE_STATUS_PUBLISHED"
  | .archived => "COURSE_STATUS_ARCHIVED"
  | .unrecognized number => toString number

/-- `CourseStatusToProto`. -/
def courseStatusToProto : CourseStatus → CourseStatusMessage
  | .draft => .draft
  | .published => .published
  | .archived => .archived

/-- `CourseStatusToSQL`. -/
def courseStatusToSQL : CourseStatusMessage → Except Error CourseStatus
  | .draft => .ok .draft
  | .published => .ok .published
  | .archived => .ok .archived
  | status => .error (.connect .invalidArgument ("invalid course status: " ++ status.text))

/-- The message `Course`. -/
structure CourseMessage where
  id : UUID
  organizationId : UUID
  ownerId : UUID
  title : String
  description : String
  status : CourseStatusMessage
  createdAt : Timestamptz
  updatedAt : Timestamptz
  canAccess : Bool := false
  deriving DecidableEq, Repr

/-- `CourseToProto`. -/
def courseToProto (c : Members.Course) (d : CourseDetails) : CourseMessage where
  id := c.id
  organizationId := c.organizationId
  ownerId := c.ownerId
  title := d.title
  description := d.description.getD ""
  status := courseStatusToProto d.status
  createdAt := d.createdAt
  updatedAt := d.updatedAt

def CourseWithAccess.toMessage (r : CourseWithAccess) : CourseMessage :=
  { courseToProto r.course r.details with canAccess := r.canAccess }

structure ListCoursesRequest where
  organizationId : UUID
  limit : Nat
  offset : Nat
  statusFilter : Option CourseStatusMessage := none
  q : Option String := none
  excludeDrafts : Option Bool := none

/-- The statement that a request is answered by. -/
def fetchCourses (callerID : UUID) (req : ListCoursesRequest) : Handler (List CourseWithAccess) :=
  if req.q.getD "" ≠ "" then
    if req.excludeDrafts.getD false then
      fetch (.listCoursesWithAccessAndTitleFilterExcludingDraft req.organizationId callerID
        (req.q.getD "") req.limit req.offset)
    else
      fetch (.listCoursesWithAccessAndTitleFilter req.organizationId callerID (req.q.getD "")
        req.limit req.offset)
  else
    match req.statusFilter with
    | some status =>
      match courseStatusToSQL status with
      | .error e => throw e
      | .ok sqlStatus =>
        fetch (.listCoursesWithAccessAndStatus req.organizationId callerID sqlStatus req.limit
          req.offset)
    | none =>
      if req.excludeDrafts.getD false then
        fetch (.listCoursesWithAccessExcludingDraft req.organizationId callerID req.limit
          req.offset)
      else fetch (.listCoursesWithAccess req.organizationId callerID req.limit req.offset)

def listCourses (ctx : Option Claims) (req : ListCoursesRequest) : Handler (List CourseMessage) :=
  do
    let claims ← check (requireOrgMember ctx req.organizationId)
    return (← fetchCourses claims.sub req).map CourseWithAccess.toMessage

/-- `RequireCourseMember` passes the caller. -/
def Opens (x : Store) (claims : Claims) (courseID : UUID) : Prop :=
  ∃ c, (requireCourseMember (some claims) courseID).run.eval (Members.answer x.members)
    (fun _ => none) = .ok c

/-- A request for a list without drafts.  A status that is asked for takes precedence. -/
def ListCoursesRequest.ExcludesDrafts (req : ListCoursesRequest) : Prop :=
  req.excludeDrafts = some true ∧ (req.q.getD "" ≠ "" ∨ req.statusFilter = none)

/-- The order of the lists, from the newest course. -/
def CourseMessage.Newer (a b : CourseMessage) : Prop :=
  b.createdAt < a.createdAt ∨ (a.createdAt = b.createdAt ∧ b.id < a.id)

/-- The lists of an organization's courses tell what the caller may open: the flag on every course
that is listed, and the courses that a list without drafts goes through, page by page. -/
structure ListsAccess (x : Store) (claims : Claims) (orgID : UUID) : Prop where
  canAccess : ∀ req : ListCoursesRequest, req.organizationId = orgID → ∀ env cs,
    (listCourses (some claims) req).run.eval (answer x) env = .ok cs →
      ∀ c ∈ cs, c.canAccess = true ↔ Opens x claims c.id
  pages : ∀ req : ListCoursesRequest, req.organizationId = orgID → req.ExcludesDrafts →
    ∃ all : List CourseMessage, all.Pairwise CourseMessage.Newer ∧
      (∀ id, id ∈ all.map CourseMessage.id ↔ ∃ course, x.members.courses.find id = some course ∧
        course.organizationId = orgID ∧
        (req.q.getD "" = "" ∨ x.titleMatches (req.q.getD "") id = true) ∧
        ((x.courseDetails id).status ≠ .draft ∨ Opens x claims id)) ∧
      ∀ limit, ∃ page : Nat → List CourseMessage,
        (∀ i, (listCourses (some claims) { req with limit := limit, offset := i * limit }).run.eval
          (answer x) (fun _ => {}) = .ok (page i)) ∧
        ∀ n, all.length ≤ n * limit → (List.range n).flatMap page = all

/-- The rows that let a user open a course. -/
def RecordsAccess (db : Members.Db) (userId : UUID) (course : Members.Course) : Prop :=
  course.ownerId = userId ∨
    (∃ m, db.organizationMembers.find (course.organizationId, userId) = some m ∧
      m.status = .active ∧ (m.role = .owner ∨ m.role = .admin)) ∨
    ∃ m, db.courseMembers.find (course.id, userId) = some m

section Lists

variable (x : Store) (orgID userId : UUID)
  {p : Members.Course → Option CourseMember → Bool}

/-- The user's membership of a course. -/
def Store.membership (course : Members.Course) : Option CourseMember :=
  x.members.courseMembers.find (course.id, userId)

theorem canAccess_iff (course : Members.Course) :
    x.canAccess userId course (x.membership userId course) = true ↔
      RecordsAccess x.members userId course := by
  have hOrg : (x.members.organizationMembers.rows.any fun om =>
      om.organizationId = course.organizationId && om.userId = userId && om.status = .active &&
        (om.role = .owner || om.role = .admin)) =
      (x.members.organizationMembers.find (course.organizationId, userId)).any fun om =>
        om.status = .active && (om.role = .owner || om.role = .admin) := by
    rw [← Table.any_rows_eq]
    congr 1
    funext om
    rw [Bool.eq_iff_iff]
    simp [Members.OrganizationMember.key, and_assoc]
  rw [Store.canAccess, hOrg, RecordsAccess, Store.membership]
  simp only [Bool.or_eq_true, Option.isSome_iff_exists, decide_eq_true_eq, Option.any_eq_true,
    Bool.and_eq_true]
  rw [or_assoc, or_comm, or_assoc]

/-- The courses that a list goes through, in its order. -/
def Store.selected (p : Members.Course → Option CourseMember → Bool) : List Members.Course :=
  (x.members.courses.rows.filter fun c =>
    c.organizationId = orgID && p c (x.membership userId c)).insertionSort x.listedBefore

/-- No course is listed twice, since a user is a member of a course once. -/
theorem coursesWithAccess_eq : x.coursesWithAccess orgID userId p =
    (x.selected orgID userId p).map fun c =>
      ⟨c, x.courseDetails c.id, x.canAccess userId c (x.membership userId c)⟩ := by
  have hJoin : leftJoin (fun (c : Members.Course) (cm : CourseMember) =>
      cm.courseId = c.id && cm.userId = userId) x.members.courses.rows
        x.members.courseMembers.rows =
      x.members.courses.rows.map fun c => (c, x.membership userId c) := by
    unfold Store.membership
    rw [← Table.leftJoin_find x.members.courseMembers fun c : Members.Course => (c.id, userId)]
    congr 1
    funext c cm
    rw [Bool.eq_iff_iff]
    simp [CourseMember.key]
  simp only [Store.coursesWithAccess, Store.selected, hJoin, List.filter_map]
  rw [← List.map_insertionSort x.listedBefore _ (fun c => (c, x.membership userId c)) _
    fun a _ b _ => Iff.rfl, List.map_map]
  rfl

variable {x orgID userId}

theorem mem_selected {c : Members.Course} : c ∈ x.selected orgID userId p ↔
    x.members.courses.find c.id = some c ∧ c.organizationId = orgID ∧
      p c (x.membership userId c) = true := by
  rw [Store.selected, List.mem_insertionSort, List.mem_filter, Table.mem_rows_iff,
    Bool.and_eq_true, decide_eq_true_eq]

instance : Std.Total x.listedBefore where
  total a b := by
    unfold Store.listedBefore
    grind

instance : IsTrans Members.Course x.listedBefore where
  trans a b c := by
    unfold Store.listedBefore
    grind

/-- The order is strict, since the identifiers differ. -/
theorem pairwise_selected : (x.selected orgID userId p).Pairwise fun a b =>
    x.listedBefore a b ∧ a.id ≠ b.id := by
  refine (List.pairwise_insertionSort _ _).and ?_
  have hIds : ((x.selected orgID userId p).map Members.Course.id).Nodup := by
    refine ((List.perm_insertionSort _ _).map _).nodup_iff.mpr ?_
    exact (List.filter_sublist.map _).nodup x.members.courses.nodup
  exact List.pairwise_map.mp hIds

end Lists

/-- The condition of the statement that a request is answered by, next to the organization's. -/
def ListCoursesRequest.condition (req : ListCoursesRequest) (x : Store) (callerID : UUID) :
    Except Error (Members.Course → Option CourseMember → Bool) :=
  if req.q.getD "" ≠ "" then
    if req.excludeDrafts.getD false then
      .ok fun c cm => x.titleMatches (req.q.getD "") c.id && x.visible callerID c cm
    else .ok fun c _ => x.titleMatches (req.q.getD "") c.id
  else
    match req.statusFilter with
    | some status => (courseStatusToSQL status).map fun s c _ => (x.courseDetails c.id).status = s
    | none => if req.excludeDrafts.getD false then .ok (x.visible callerID) else .ok fun _ _ => true

section Requests

variable {x : Store} {claims : Claims} {orgID : UUID} (W : Env → Prop)

theorem fetch_meets {q : Query} {a : q.Result} (h : q.answer x = .ok a) :
    Prog.Meets (Prog.Answers (answer x) W) (fun _ _ => True) (fetch q) (fun b _ => b = a)
      (fun _ => ∃ env, W env ∧ env.failure ≠ none) () := by
  refine (Prog.meets_perform_bind _).mpr ⟨trivial, ?_⟩
  rintro r _ ⟨env, hW, rfl⟩
  cases hFailure : env.failure with
  | some e =>
    have hAnswer : answer x env (.conn q) = .error e := by simp [answer, hFailure]
    rw [hAnswer]
    exact ⟨env, hW, by simp [hFailure]⟩
  | none =>
    have hAnswer : answer x env (.conn q) = .ok a := by simp [answer, hFailure, h]
    rw [hAnswer]
    exact rfl

theorem fetchCourses_meets (callerID : UUID) (req : ListCoursesRequest) :
    Prog.Meets (Prog.Answers (answer x) W) (fun _ _ => True) (fetchCourses callerID req)
      (fun rows _ => ∃ p, req.condition x callerID = .ok p ∧
        rows = page req.limit req.offset (x.coursesWithAccess req.organizationId callerID p))
      (fun _ => (∃ env, W env ∧ env.failure ≠ none) ∨ ∃ e, req.condition x callerID = .error e)
      () := by
  have hFetch : ∀ {q : Query} {rows : q.Result}, q.answer x = .ok rows → ∀ {ok : _ → Unit → Prop},
      ok rows () → Prog.Meets (Prog.Answers (answer x) W) (fun _ _ => True) (fetch q) ok
        (fun _ => (∃ env, W env ∧ env.failure ≠ none) ∨
          ∃ e, req.condition x callerID = .error e) () :=
    fun h _ hOk => (fetch_meets W h).mono (fun _ _ hRow => hRow ▸ hOk) fun _ hFails => .inl hFails
  unfold fetchCourses
  split
  · next hTitle =>
    split
    · next hDrafts =>
      exact hFetch rfl ⟨_, by rw [ListCoursesRequest.condition, if_pos hTitle, if_pos hDrafts], rfl⟩
    · next hDrafts =>
      exact hFetch rfl ⟨_, by rw [ListCoursesRequest.condition, if_pos hTitle, if_neg hDrafts], rfl⟩
  · next hTitle =>
    split
    · next status hStatus =>
      have hCondition : req.condition x callerID = (courseStatusToSQL status).map
          fun s c _ => decide ((x.courseDetails c.id).status = s) := by
        rw [ListCoursesRequest.condition, if_neg hTitle, hStatus]
      split
      · next e hError => exact .inr ⟨e, by rw [hCondition, hError]; rfl⟩
      · next s hSql => exact hFetch rfl ⟨_, by rw [hCondition, hSql]; rfl, rfl⟩
    · next hStatus =>
      split
      · next hDrafts =>
        refine hFetch rfl ⟨_, ?_, rfl⟩
        rw [ListCoursesRequest.condition, if_neg hTitle, hStatus]
        exact if_pos hDrafts
      · next hDrafts =>
        refine hFetch rfl ⟨_, ?_, rfl⟩
        rw [ListCoursesRequest.condition, if_neg hTitle, hStatus]
        exact if_neg hDrafts

/-- An access check of the members' database, in the environment of the handlers. -/
theorem check_meets {α : Type} {h : Members.Handler α} {ok : α → Unit → Prop} {err : Unit → Prop}
    (hMeets : Prog.Meets
      (Prog.Answers (Members.answer x.members) fun f => ∃ env, W env ∧ env.failure = f)
      (fun _ _ => True) h ok err ()) :
    Prog.Meets (Prog.Answers (answer x) W) (fun _ _ => True) (check h) ok err () := by
  refine Prog.ensures_hoist.mpr (Prog.Ensures.of_step hMeets ?_)
  rintro o s r t ⟨r', ⟨env, hW, rfl⟩, rfl⟩
  exact ⟨env.failure, ⟨env, hW, rfl⟩, rfl⟩

theorem listCourses_meets (claims : Claims) (req : ListCoursesRequest) :
    Prog.Meets (Prog.Answers (answer x) W) (fun _ _ => True) (listCourses (some claims) req)
      (fun cs _ => ∃ p, req.condition x claims.sub = .ok p ∧ cs = (page req.limit req.offset
        (x.coursesWithAccess req.organizationId claims.sub p)).map CourseWithAccess.toMessage)
      (fun _ => (∃ env, W env ∧ env.failure ≠ none) ∨
        Members.hasOrgRole x.members claims req.organizationId
          [.owner, .admin, .teacher, .student] = false ∨
        ∃ e, req.condition x claims.sub = .error e) () := by
  refine (Prog.meets_bind _).mpr ((check_meets W
    (Members.requireOrgRole_meets _ claims req.organizationId _)).mono ?_ ?_)
  · rintro c _ ⟨rfl, -⟩
    refine (Prog.meets_bind _).mpr ((fetchCourses_meets W c.sub req).mono ?_ ?_)
    · rintro rows _ ⟨p, hCondition, rfl⟩
      exact ⟨p, hCondition, rfl⟩
    · rintro _ (hFails | hRefused)
      · exact .inl hFails
      · exact .inr (.inr hRefused)
  · rintro _ (⟨e, env, hW, hFailure⟩ | hRole)
    · exact .inl ⟨env, hW, by simp [hFailure]⟩
    · exact .inr (.inl hRole)

variable (x) in
/-- A course as it is listed for a user. -/
def Store.listed (userId : UUID) (c : Members.Course) : CourseMessage :=
  CourseWithAccess.toMessage
    ⟨c, x.courseDetails c.id, x.canAccess userId c (x.membership userId c)⟩

theorem map_page_toMessage (userId : UUID) (p : Members.Course → Option CourseMember → Bool)
    (limit offset : Nat) :
    (page limit offset (x.coursesWithAccess orgID userId p)).map CourseWithAccess.toMessage =
      (page limit offset (x.selected orgID userId p)).map (x.listed userId) := by
  simp only [coursesWithAccess_eq, page, List.map_drop, List.map_take, List.map_map]
  rfl

theorem listCourses_eq_ok (req : ListCoursesRequest)
    (hMay : Members.hasOrgRole x.members claims req.organizationId
      [.owner, .admin, .teacher, .student] = true)
    {p : Members.Course → Option CourseMember → Bool}
    (hCondition : req.condition x claims.sub = .ok p) :
    (listCourses (some claims) req).run.eval (answer x) (fun _ => {}) =
      .ok ((page req.limit req.offset (x.selected req.organizationId claims.sub p)).map
        (x.listed claims.sub)) := by
  have hEval := (listCourses_meets (x := x) (· = {}) claims req).of_eval (w := fun _ => {})
    fun _ => rfl
  cases hRun : (listCourses (some claims) req).run.eval (answer x) (fun _ => {}) with
  | ok cs =>
    rw [hRun] at hEval
    obtain ⟨p', hp', rfl⟩ := hEval
    obtain rfl := Except.ok.inj (hp'.symm.trans hCondition)
    rw [map_page_toMessage]
  | error e =>
    rw [hRun] at hEval
    rcases hEval with ⟨env, rfl, hFails⟩ | hRole | ⟨e, hRefused⟩
    · exact absurd rfl hFails
    · rw [hMay] at hRole
      cases hRole
    · rw [hCondition] at hRefused
      cases hRefused

/-- The access check of a course, by the rows. -/
theorem opens_iff (hActive : claims.status = .active) {course : Members.Course}
    (hFind : x.members.courses.find course.id = some course) :
    Opens x claims course.id ↔
      claims.role = .admin ∨ RecordsAccess x.members claims.sub course := by
  have hOpens : Opens x claims course.id ↔ Members.canOpen x.members claims course.id = true := by
    unfold Opens
    simp only [Members.requireCourseMember_eval, exists_eq_left]
  have hManages : Members.managesOrg
      (one (x.members.organizationMembers.find (course.organizationId, claims.sub))) = true ↔
        ∃ m, x.members.organizationMembers.find (course.organizationId, claims.sub) = some m ∧
          m.status = .active ∧ (m.role = .owner ∨ m.role = .admin) := by
    cases x.members.organizationMembers.find (course.organizationId, claims.sub) <;>
      simp [one, Members.managesOrg]
  rw [hOpens, RecordsAccess, ← hManages]
  simp [Members.canOpen, hActive, hFind, Option.isSome_iff_exists, or_assoc]

theorem condition_of_excludesDrafts {req : ListCoursesRequest} (h : req.ExcludesDrafts)
    (userId : UUID) : ∃ p, req.condition x userId = .ok p ∧ ∀ c cm, p c cm = true ↔
      (req.q.getD "" = "" ∨ x.titleMatches (req.q.getD "") c.id = true) ∧
        x.visible userId c cm = true := by
  obtain ⟨hDrafts, hStatus⟩ := h
  have hExcludes : req.excludeDrafts.getD false = true := by rw [hDrafts]; rfl
  by_cases hTitle : req.q.getD "" = ""
  · have hNone : req.statusFilter = none := hStatus.resolve_left (not_not.mpr hTitle)
    refine ⟨x.visible userId, ?_, fun c cm => ?_⟩
    · simp [ListCoursesRequest.condition, hTitle, hNone, hExcludes]
    · simp [hTitle]
  · refine ⟨fun c cm => x.titleMatches (req.q.getD "") c.id && x.visible userId c cm, ?_,
      fun c cm => ?_⟩
    · simp [ListCoursesRequest.condition, hTitle, hExcludes]
    · simp [hTitle]

theorem visible_iff (userId : UUID) (c : Members.Course) :
    x.visible userId c (x.membership userId c) = true ↔
      (x.courseDetails c.id).status ≠ .draft ∨ RecordsAccess x.members userId c := by
  rw [Store.visible, Bool.or_eq_true, decide_eq_true_eq, canAccess_iff]

end Requests

section Access

variable {x : Store} {claims : Claims} {orgID : UUID}

/-- The flags are those of the rows, whatever fails. -/
theorem canAccess_of_listed {req : ListCoursesRequest} {env : Nat → Env} {cs : List CourseMessage}
    (h : (listCourses (some claims) req).run.eval (answer x) env = .ok cs) {c : CourseMessage}
    (hc : c ∈ cs) : ∃ course, x.members.courses.find c.id = some course ∧ course.id = c.id ∧
      course.organizationId = req.organizationId ∧
        (c.canAccess = true ↔ RecordsAccess x.members claims.sub course) := by
  have hEval := (listCourses_meets (x := x) (fun _ => True) claims req).of_eval (w := env)
    fun _ => trivial
  rw [h] at hEval
  obtain ⟨p, -, rfl⟩ := hEval
  rw [map_page_toMessage] at hc
  obtain ⟨course, hCourse, rfl⟩ := List.mem_map.mp hc
  obtain ⟨hFind, hOrg, -⟩ := mem_selected.mp (List.mem_of_mem_drop (List.mem_of_mem_take hCourse))
  exact ⟨course, hFind, rfl, hOrg, canAccess_iff x claims.sub course⟩

/-- Where the rows decide what the caller may open, the pages go through these courses. -/
theorem pages_of_opens
    (hMay : Members.hasOrgRole x.members claims orgID [.owner, .admin, .teacher, .student] = true)
    (hOpens : ∀ course, x.members.courses.find course.id = some course →
      course.organizationId = orgID →
        (Opens x claims course.id ↔ RecordsAccess x.members claims.sub course))
    {req : ListCoursesRequest} (hOrg : req.organizationId = orgID) (hDrafts : req.ExcludesDrafts) :
    ∃ all : List CourseMessage, all.Pairwise CourseMessage.Newer ∧
      (∀ id, id ∈ all.map CourseMessage.id ↔ ∃ course, x.members.courses.find id = some course ∧
        course.organizationId = orgID ∧
        (req.q.getD "" = "" ∨ x.titleMatches (req.q.getD "") id = true) ∧
        ((x.courseDetails id).status ≠ .draft ∨ Opens x claims id)) ∧
      ∀ limit, ∃ page : Nat → List CourseMessage,
        (∀ i, (listCourses (some claims) { req with limit := limit, offset := i * limit }).run.eval
          (answer x) (fun _ => {}) = .ok (page i)) ∧
        ∀ n, all.length ≤ n * limit → (List.range n).flatMap page = all := by
  subst hOrg
  obtain ⟨p, hCondition, hp⟩ := condition_of_excludesDrafts (x := x) hDrafts claims.sub
  refine ⟨(x.selected req.organizationId claims.sub p).map (x.listed claims.sub), ?_, ?_, ?_⟩
  · refine List.Pairwise.map _ ?_ pairwise_selected
    rintro a b ⟨hNewer | ⟨hSame, hLe⟩, hNe⟩
    · exact .inl hNewer
    · exact .inr ⟨hSame, Nat.lt_of_le_of_ne hLe (Ne.symm hNe)⟩
  · intro id
    simp only [List.map_map, List.mem_map, mem_selected, hp, visible_iff]
    constructor
    · rintro ⟨course, ⟨hFind, hIn, hTitle, hVisible⟩, rfl⟩
      refine ⟨course, hFind, hIn, hTitle, hVisible.imp_right ?_⟩
      exact (hOpens course hFind hIn).mpr
    · rintro ⟨course, hFind, hIn, hTitle, hVisible⟩
      obtain rfl : course.id = id := Table.find_key hFind
      exact ⟨course, ⟨hFind, hIn, hTitle, hVisible.imp_right (hOpens course hFind hIn).mp⟩, rfl⟩
  · intro limit
    refine ⟨fun i => (page limit (i * limit) (x.selected req.organizationId claims.sub p)).map
      (x.listed claims.sub), fun i => ?_, fun n hn => ?_⟩
    · exact listCourses_eq_ok { req with limit := limit, offset := i * limit } hMay
        hCondition
    · rw [List.length_map] at hn
      rw [← List.map_flatMap, flatMap_page, List.take_of_length_le hn]

/-- For a caller who may list the courses of an organization, the lists tell what the caller may
open exactly when the caller is no system admin, or has access to every course of the organization
by the rows. -/
theorem listsAccess_iff (hMay : (requireOrgMember (some claims) orgID).run.eval
      (Members.answer x.members) (fun _ => none) = .ok claims) :
    ListsAccess x claims orgID ↔ (claims.role = .admin → ∀ course ∈ x.members.courses.rows,
      course.organizationId = orgID → RecordsAccess x.members claims.sub course) := by
  replace hMay := (Members.requireOrgRole_eval.mp hMay).2
  have hActive : claims.status = .active := by
    simp only [Members.hasOrgRole, Bool.and_eq_true, decide_eq_true_eq] at hMay
    exact hMay.1
  constructor
  · rintro ⟨hFlags, -⟩ hAdmin course hCourse rfl
    have hFind := Table.mem_rows_iff.mp hCourse
    let all := x.selected course.organizationId claims.sub fun _ _ => true
    have hMem : course ∈ all := mem_selected.mpr ⟨hFind, rfl, rfl⟩
    obtain ⟨i, hi, hGet⟩ := List.getElem_of_mem hMem
    have hPage : page 1 i all = [course] := by
      rw [page, List.drop_eq_getElem_cons hi, hGet]
      rfl
    have hRun := listCourses_eq_ok ⟨course.organizationId, 1, i, none, none, none⟩ hMay
      (p := fun _ _ => true) rfl
    rw [hPage] at hRun
    have hFlag := hFlags ⟨course.organizationId, 1, i, none, none, none⟩ rfl _ _ hRun _
      (List.mem_singleton_self _)
    exact (canAccess_iff x claims.sub course).mp
      (hFlag.mpr ((opens_iff hActive hFind).mpr (.inl hAdmin)))
  · intro hRows
    have hOpens : ∀ course, x.members.courses.find course.id = some course →
        course.organizationId = orgID →
          (Opens x claims course.id ↔ RecordsAccess x.members claims.sub course) := by
      intro course hFind hIn
      rw [opens_iff hActive hFind, or_iff_right_iff_imp]
      exact fun hAdmin => hRows hAdmin course (Table.mem_rows_iff.mpr hFind) hIn
    refine ⟨fun req hOrg env cs hRun c hc => ?_, fun req hOrg hDrafts => ?_⟩
    · obtain ⟨course, hFind, hId, hIn, hFlag⟩ := canAccess_of_listed hRun hc
      rw [hFlag, ← hId]
      rw [← hId] at hFind
      exact (hOpens course hFind (hIn.trans hOrg)).symm
    · exact pages_of_opens hMay hOpens hOrg hDrafts

end Access

/-- An organization with a published course and a draft, both of one owner. -/
def school : Store where
  members :=
    { organizationMembers := .ofList [⟨1, 100, .student, .active⟩]
      courses := .ofList [⟨5, 1, 7⟩, ⟨6, 1, 7⟩]
      courseMembers := .ofList [⟨6, 100, .student⟩]
      courseJoinRequests := .empty }
  courseDetails := fun id =>
    ⟨"Data structures", none, if id = 6 then .draft else .published, id, id⟩
  lower := String.toLower
  courseModules := .empty
  lessons := .empty
  lessonTranscriptChunks := .empty
  lessonInteractions := .empty
  tasks := .empty
  lessonAnalyses := fun _ => none
  lessonAttempts := []
  transcripts := fun _ => none
  segments := fun _ => none

theorem listsAccess_iff_school : ListsAccess school ⟨100, .normal, .active⟩ 1 :=
  (listsAccess_iff (by decide)).mpr nofun

def sysAdmin : Claims := ⟨200, .admin, .active⟩

/-- A system admin may open the published course and the draft.  The one is listed as a course that
may not be opened, and the other is not listed. -/
theorem listCourses_sysAdmin :
    (listCourses (some sysAdmin) ⟨1, 10, 0, none, none, some true⟩).run.eval
      (answer school) (fun _ => {}) =
        .ok [⟨5, 1, 7, "Data structures", "", .published, 5, 5, false⟩] ∧
    Opens school sysAdmin 5 ∧ Opens school sysAdmin 6 ∧
    ¬ ListsAccess school sysAdmin 1 := by
  have hListed : (listCourses (some sysAdmin)
      ⟨1, 10, 0, none, none, some true⟩).run.eval (answer school) (fun _ => {}) =
        .ok [⟨5, 1, 7, "Data structures", "", .published, 5, 5, false⟩] := by decide
  have hOpens : Opens school sysAdmin 5 := ⟨sysAdmin, by decide⟩
  refine ⟨hListed, hOpens, ⟨sysAdmin, by decide⟩, fun h => ?_⟩
  exact absurd ((h.canAccess _ rfl _ _ hListed _ (List.mem_singleton_self _)).mpr hOpens) nofun

end Richter.Courses
