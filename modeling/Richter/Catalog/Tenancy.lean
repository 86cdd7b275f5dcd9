import Richter.Catalog.Handlers
import Richter.Members.Passed

/-! The content of an organization, which only its own staff changes. -/

namespace Richter.Catalog

open Lib
open Courses (teacherRoles)
open Members (Claims OrganizationRole)
open Storage (Texts)

/-- What a row can belong to. -/
inductive Node
  | organization (id : UUID)
  | course (id : UUID)
  | module (id : UUID)
  | lesson (id : UUID)
  deriving DecidableEq

/-- What a statement writes, or adds a row to. -/
def Query.target : Query → Option Node
  | .getCourseByID _ | .getCourseModuleByID _ | .getLessonByID _ | .getOrgIDByLessonID _
  | .createOrganization .. => none
  | .updateOrganization id .. | .updateOrganizationStatus id _ | .deleteOrganization id
  | .createCourse id .. => some (.organization id)
  | .updateCourse id .. | .updateCourseStatus id _ | .deleteCourse id
  | .createCourseModule id .. => some (.course id)
  | .updateCourseModule id .. | .deleteCourseModule id | .createLesson id .. => some (.module id)
  | .updateLesson id _ | .updateLessonVideo id .. | .updateLessonFeedbackMode id _
  | .updateLessonDefaultInteractionConfig id _ | .deleteLesson id => some (.lesson id)

/-- The roles that a write is for. -/
def Query.roles : Query → List OrganizationRole
  | .updateOrganization .. => [.admin, .owner]
  | .updateOrganizationStatus .. | .deleteOrganization _ => [.owner]
  | .updateCourseStatus .. | .deleteCourse _ => [.owner, .admin]
  | _ => teacherRoles

namespace Store

variable (x : Store)

/-- The organization that a row belongs to, if there has ever been such a row. -/
def orgOf : Node → Option UUID
  | .organization id => some id
  | .course id => x.orgOfCourse id
  | .module id => (x.courseOfModule id).bind x.orgOfCourse
  | .lesson id => (x.moduleOfLesson id).bind fun m => (x.courseOfModule m).bind x.orgOfCourse

def courseIn (orgID : UUID) (c : Course) : Bool := c.organizationId = orgID

def moduleIn (orgID : UUID) (m : CourseModule) : Bool :=
  (x.courses.find m.courseId).any (courseIn orgID)

def lessonIn (orgID : UUID) (l : Lesson) : Bool :=
  (x.courseModules.find l.moduleId).any (x.moduleIn orgID)

end Store

/-- An organization with all that belongs to it. -/
@[ext]
structure Content where
  organization : Option Organization
  courses : List Course
  courseModules : List CourseModule
  lessons : List Lesson

def Store.content (x : Store) (orgID : UUID) : Content where
  organization := x.organizations.find orgID
  courses := x.courses.rows.filter (Store.courseIn orgID)
  courseModules := x.courseModules.rows.filter (x.moduleIn orgID)
  lessons := x.lessons.rows.filter (x.lessonIn orgID)

def Content.nodes (c : Content) : List Node :=
  c.courses.map (fun c => .course c.id) ++ (c.courseModules.map (fun m => .module m.id) ++
    c.lessons.map fun l => .lesson l.id)

/-- Every row has the parent that it has always had, and a module or lesson has it in the tables. -/
structure Store.Sound (x : Store) : Prop where
  course : ∀ id c, x.courses.find id = some c → x.orgOfCourse id = some c.organizationId
  module : ∀ id m, x.courseModules.find id = some m → x.courseOfModule id = some m.courseId ∧
    (x.courses.find m.courseId).isSome = true
  lesson : ∀ id l, x.lessons.find id = some l → x.moduleOfLesson id = some l.moduleId ∧
    (x.courseModules.find l.moduleId).isSome = true

/-- What has been known of rows that have ever been there stays known. -/
structure Store.Le (x y : Store) : Prop where
  course : ∀ id o, x.orgOfCourse id = some o → y.orgOfCourse id = some o
  module : ∀ id c, x.courseOfModule id = some c → y.courseOfModule id = some c
  lesson : ∀ id m, x.moduleOfLesson id = some m → y.moduleOfLesson id = some m

section Store

variable {x y z : Store} {orgID id : UUID} {n : Node}

theorem Store.Le.of_eq (hCourse : y.orgOfCourse = x.orgOfCourse)
    (hModule : y.courseOfModule = x.courseOfModule)
    (hLesson : y.moduleOfLesson = x.moduleOfLesson) : x.Le y where
  course _ _ h := by rw [hCourse, h]
  module _ _ h := by rw [hModule, h]
  lesson _ _ h := by rw [hLesson, h]

theorem Store.Le.orgOf (h : x.Le y) (hOrg : x.orgOf n = some orgID) : y.orgOf n = some orgID := by
  cases n with
  | organization id => exact hOrg
  | course id => exact h.course _ _ hOrg
  | module id =>
    obtain ⟨c, hCourse, hOrg⟩ := Option.bind_eq_some_iff.mp hOrg
    exact Option.bind_eq_some_iff.mpr ⟨c, h.module _ _ hCourse, h.course _ _ hOrg⟩
  | lesson id =>
    obtain ⟨m, hModule, hOrg⟩ := Option.bind_eq_some_iff.mp hOrg
    obtain ⟨c, hCourse, hOrg⟩ := Option.bind_eq_some_iff.mp hOrg
    exact Option.bind_eq_some_iff.mpr ⟨m, h.lesson _ _ hModule,
      Option.bind_eq_some_iff.mpr ⟨c, h.module _ _ hCourse, h.course _ _ hOrg⟩⟩

namespace Store.Sound

variable (hx : x.Sound)

include hx

theorem courseIn_iff {c : Course} (hc : c ∈ x.courses.rows) :
    Store.courseIn orgID c = true ↔ x.orgOf (.course c.id) = some orgID := by
  show decide (c.organizationId = orgID) = true ↔ x.orgOfCourse c.id = some orgID
  rw [hx.course _ _ (Table.mem_rows_iff.mp hc)]
  simp

theorem moduleIn_eq_false {m : CourseModule} (hNot : x.orgOf (.course m.courseId) ≠ some orgID) :
    x.moduleIn orgID m = false := by
  rw [Store.moduleIn]
  cases hc : x.courses.find m.courseId with
  | none => rfl
  | some c =>
    have hIn : Store.courseIn orgID c = true ↔ _ := hx.courseIn_iff (Table.find_eq_some_iff.mp hc).1
    rw [Table.find_key hc] at hIn
    exact Bool.eq_false_iff.mpr fun h => hNot (hIn.mp h)

theorem moduleIn_iff {m : CourseModule} (hm : m ∈ x.courseModules.rows) :
    x.moduleIn orgID m = true ↔ x.orgOf (.module m.id) = some orgID := by
  obtain ⟨hCourse, hSome⟩ := hx.module _ _ (Table.mem_rows_iff.mp hm)
  obtain ⟨c, hc⟩ := Option.isSome_iff_exists.mp hSome
  have hIn : Store.courseIn orgID c = true ↔ _ := hx.courseIn_iff (Table.find_eq_some_iff.mp hc).1
  rw [Table.find_key hc] at hIn
  show (x.courses.find m.courseId).any _ = true ↔ (x.courseOfModule m.id).bind _ = _
  rw [hc, hCourse]
  exact hIn

theorem lessonIn_eq_false {l : Lesson} (hNot : x.orgOf (.module l.moduleId) ≠ some orgID) :
    x.lessonIn orgID l = false := by
  rw [Store.lessonIn]
  cases hm : x.courseModules.find l.moduleId with
  | none => rfl
  | some m =>
    have hIn : x.moduleIn orgID m = true ↔ _ := hx.moduleIn_iff (Table.find_eq_some_iff.mp hm).1
    rw [Table.find_key hm] at hIn
    exact Bool.eq_false_iff.mpr fun h => hNot (hIn.mp h)

theorem lessonIn_iff {l : Lesson} (hl : l ∈ x.lessons.rows) :
    x.lessonIn orgID l = true ↔ x.orgOf (.lesson l.id) = some orgID := by
  obtain ⟨hModule, hSome⟩ := hx.lesson _ _ (Table.mem_rows_iff.mp hl)
  obtain ⟨m, hm⟩ := Option.isSome_iff_exists.mp hSome
  have hIn : x.moduleIn orgID m = true ↔ _ := hx.moduleIn_iff (Table.find_eq_some_iff.mp hm).1
  rw [Table.find_key hm] at hIn
  show (x.courseModules.find l.moduleId).any _ = true ↔ (x.moduleOfLesson l.id).bind _ = _
  rw [hm, hModule]
  exact hIn

omit hx in
theorem moduleIn_congr (hSame : ∀ m ∈ x.courseModules.rows,
    y.courses.find m.courseId = x.courses.find m.courseId) :
    ∀ m ∈ x.courseModules.rows, y.moduleIn orgID m = x.moduleIn orgID m := fun m hm => by
  rw [Store.moduleIn, Store.moduleIn, hSame m hm]

theorem lessonIn_congr (hModules : ∀ m ∈ x.courseModules.rows,
      y.moduleIn orgID m = x.moduleIn orgID m) {l : Lesson} (hl : l ∈ x.lessons.rows)
    (hSame : y.courseModules.find l.moduleId = x.courseModules.find l.moduleId) :
    y.lessonIn orgID l = x.lessonIn orgID l := by
  obtain ⟨-, hSome⟩ := hx.lesson _ _ (Table.mem_rows_iff.mp hl)
  obtain ⟨m, hm⟩ := Option.isSome_iff_exists.mp hSome
  rw [Store.lessonIn, Store.lessonIn, hSame, hm]
  exact hModules m (Table.find_eq_some_iff.mp hm).1

end Store.Sound

/-! ### What a statement leaves of an organization -/

/-- A statement keeps the tables sound and everything that is known, and leaves the organization as
it was. -/
structure Store.Leaves (x y : Store) (orgID : UUID) : Prop where
  sound : y.Sound
  le : x.Le y
  content : y.content orgID = x.content orgID

theorem Store.Leaves.refl (hx : x.Sound) : x.Leaves x orgID :=
  ⟨hx, .of_eq rfl rfl rfl, rfl⟩

theorem Store.Leaves.trans (h : x.Leaves y orgID) (h' : y.Leaves z orgID) : x.Leaves z orgID where
  sound := h'.sound
  le := ⟨fun id o ho => h'.le.course id o (h.le.course id o ho),
    fun id o ho => h'.le.module id o (h.le.module id o ho),
    fun id o ho => h'.le.lesson id o (h.le.lesson id o ho)⟩
  content := h'.content.trans h.content

namespace Store

theorem leaves_updateOrganization (hx : x.Sound) {f : Organization → Organization}
    (hf : ∀ o, (f o).id = o.id) (hNot : orgID ≠ id) :
    x.Leaves (x.updateOrganization id f hf) orgID := by
  refine ⟨⟨hx.course, hx.module, hx.lesson⟩, .of_eq rfl rfl rfl, ?_⟩
  have hFind : (x.updateOrganization id f hf).organizations.find orgID =
      x.organizations.find orgID := by
    rw [updateOrganization, Table.find_update]
    cases hRow : x.organizations.find orgID with
    | none => rfl
    | some o =>
      have hKey : o.id ≠ id := fun hEq => hNot ((Table.find_key hRow).symm.trans hEq)
      simp [hKey]
  unfold content
  rw [hFind]
  rfl

theorem leaves_updateCourse (hx : x.Sound) {f : Course → Course} (hf : ∀ c, (f c).id = c.id)
    (hParent : ∀ c, (f c).organizationId = c.organizationId)
    (hNot : x.orgOf (.course id) ≠ some orgID) : x.Leaves (x.updateCourse id f hf) orgID := by
  have hFind : ∀ k, (x.updateCourse id f hf).courses.find k =
      (x.courses.find k).map fun c => if c.id = id then f c else c := fun k => by
    rw [updateCourse, Table.find_update]
    simp
  have hModuleIn : (x.updateCourse id f hf).moduleIn orgID = x.moduleIn orgID := by
    funext m
    rw [moduleIn, hFind, moduleIn]
    cases x.courses.find m.courseId with
    | none => rfl
    | some c =>
      by_cases hc : c.id = id
      · simp [hc, courseIn, hParent]
      · simp [hc]
  refine ⟨⟨fun k c hc => ?_, fun k m hm => ?_, hx.lesson⟩, .of_eq rfl rfl rfl, ?_⟩
  · rw [hFind] at hc
    obtain ⟨c', hc', rfl⟩ := Option.map_eq_some_iff.mp hc
    refine (hx.course k c' hc').trans ?_
    by_cases hEq : c'.id = id <;> simp [hEq, hParent]
  · obtain ⟨hCourse, hSome⟩ := hx.module k m hm
    exact ⟨hCourse, by rw [hFind, Option.isSome_map]; exact hSome⟩
  · have hCourses : (x.updateCourse id f hf).courses.rows.filter (courseIn orgID) =
        x.courses.rows.filter (courseIn orgID) := by
      refine Table.filter_update_eq hf (fun _ _ _ => rfl) fun c hc hEq => ?_
      have hOut : courseIn orgID c = false := by
        rw [← Bool.not_eq_true, hx.courseIn_iff hc, of_decide_eq_true hEq]
        exact hNot
      exact ⟨hOut, by rw [← hOut, courseIn, courseIn, hParent]⟩
    unfold content lessonIn
    rw [hCourses, hModuleIn]
    rfl

theorem leaves_updateModule (hx : x.Sound) {f : CourseModule → CourseModule}
    (hf : ∀ m, (f m).id = m.id) (hParent : ∀ m, (f m).courseId = m.courseId)
    (hNot : x.orgOf (.module id) ≠ some orgID) : x.Leaves (x.updateModule id f hf) orgID := by
  have hFind : ∀ k, (x.updateModule id f hf).courseModules.find k =
      (x.courseModules.find k).map fun m => if m.id = id then f m else m := fun k => by
    rw [updateModule, Table.find_update]
    simp
  have hLessonIn : (x.updateModule id f hf).lessonIn orgID = x.lessonIn orgID := by
    funext l
    rw [lessonIn, hFind, lessonIn]
    cases x.courseModules.find l.moduleId with
    | none => rfl
    | some m =>
      by_cases hm : m.id = id
      · simp [hm, moduleIn, hParent, updateModule]
      · simp [hm, moduleIn, updateModule]
  refine ⟨⟨hx.course, fun k m hm => ?_, fun k l hl => ?_⟩, .of_eq rfl rfl rfl, ?_⟩
  · rw [hFind] at hm
    obtain ⟨m', hm', rfl⟩ := Option.map_eq_some_iff.mp hm
    obtain ⟨hCourse, hSome⟩ := hx.module k m' hm'
    by_cases hEq : m'.id = id
    · simpa [hEq, hParent, updateModule] using ⟨hCourse, hSome⟩
    · simpa [hEq, updateModule] using ⟨hCourse, hSome⟩
  · obtain ⟨hModule, hSome⟩ := hx.lesson k l hl
    exact ⟨hModule, by rw [hFind, Option.isSome_map]; exact hSome⟩
  · have hModules : (x.updateModule id f hf).courseModules.rows.filter
        ((x.updateModule id f hf).moduleIn orgID) =
          x.courseModules.rows.filter (x.moduleIn orgID) := by
      refine Table.filter_update_eq hf (fun _ _ _ => rfl) fun m hm hEq => ?_
      have hOut : x.moduleIn orgID m = false := by
        rw [← Bool.not_eq_true, hx.moduleIn_iff hm, of_decide_eq_true hEq]
        exact hNot
      exact ⟨hOut, by rw [← hOut, moduleIn, moduleIn, hParent]; rfl⟩
    unfold content
    rw [hModules, hLessonIn]
    rfl

theorem leaves_updateLesson (hx : x.Sound) {f : Lesson → Lesson} (hf : ∀ l, (f l).id = l.id)
    (hParent : ∀ l, (f l).moduleId = l.moduleId) (hNot : x.orgOf (.lesson id) ≠ some orgID) :
    x.Leaves (x.updateLesson id f hf) orgID := by
  refine ⟨⟨hx.course, hx.module, fun k l hl => ?_⟩, .of_eq rfl rfl rfl, ?_⟩
  · rw [updateLesson, Table.find_update] at hl
    obtain ⟨l', hl', rfl⟩ := Option.map_eq_some_iff.mp hl
    obtain ⟨hModule, hSome⟩ := hx.lesson k l' hl'
    by_cases hEq : l'.id = id
    · simpa [hEq, hParent, updateLesson] using ⟨hModule, hSome⟩
    · simpa [hEq, updateLesson] using ⟨hModule, hSome⟩
  · have hLessons : (x.updateLesson id f hf).lessons.rows.filter
        ((x.updateLesson id f hf).lessonIn orgID) = x.lessons.rows.filter (x.lessonIn orgID) := by
      refine Table.filter_update_eq hf (fun _ _ _ => rfl) fun l hl hEq => ?_
      have hOut : x.lessonIn orgID l = false := by
        rw [← Bool.not_eq_true, hx.lessonIn_iff hl, of_decide_eq_true hEq]
        exact hNot
      exact ⟨hOut, by rw [← hOut, lessonIn, lessonIn, hParent]; rfl⟩
    unfold content
    rw [hLessons]
    rfl

theorem leaves_deleteLessons (hx : x.Sound) {p : Lesson → Bool}
    (hNot : ∀ l ∈ x.lessons.rows, p l = true → x.lessonIn orgID l = false) :
    x.Leaves (x.deleteLessons p) orgID := by
  refine ⟨⟨hx.course, hx.module, fun k l hl => ?_⟩, .of_eq rfl rfl rfl, ?_⟩
  · rw [deleteLessons, Table.find_delete] at hl
    exact hx.lesson k l (Option.filter_eq_some_iff.mp hl).1
  · have hLessons : (x.deleteLessons p).lessons.rows.filter ((x.deleteLessons p).lessonIn orgID) =
        x.lessons.rows.filter (x.lessonIn orgID) :=
      Table.filter_delete_eq (fun _ _ _ => rfl) hNot
    unfold content
    rw [hLessons]
    rfl

/-- With the modules of an organization their lessons go. -/
theorem leaves_deleteModules (hx : x.Sound) {p : CourseModule → Bool}
    (hNot : ∀ m ∈ x.courseModules.rows, p m = true → x.moduleIn orgID m = false) :
    x.Leaves (x.deleteModules p) orgID := by
  have hLessons : x.Leaves
      (x.deleteLessons fun l => (x.courseModules.find l.moduleId).any p) orgID := by
    refine leaves_deleteLessons hx fun l _ hp => ?_
    obtain ⟨m, hm, hp⟩ := Option.any_eq_true _ _ |>.mp hp
    rw [lessonIn, hm]
    exact hNot m (Table.find_eq_some_iff.mp hm).1 hp
  refine hLessons.trans ?_
  -- the modules that stay are those of the lessons that stay
  have hz := hLessons.sound
  have hStays : ∀ l ∈
      (x.deleteLessons fun l => (x.courseModules.find l.moduleId).any p).lessons.rows,
      (x.deleteModules p).courseModules.find l.moduleId = x.courseModules.find l.moduleId := by
    intro l hl
    have hKept : (!(x.courseModules.find l.moduleId).any p) = true := (List.mem_filter.mp hl).2
    rw [deleteModules, Table.find_delete]
    cases hm : x.courseModules.find l.moduleId with
    | none => rfl
    | some m =>
      rw [hm] at hKept
      simpa using hKept
  refine ⟨⟨hz.course, fun k m hm => ?_, fun k l hl => ?_⟩, .of_eq rfl rfl rfl, ?_⟩
  · rw [deleteModules, Table.find_delete] at hm
    exact hz.module k m (Option.filter_eq_some_iff.mp hm).1
  · obtain ⟨hModule, hSome⟩ := hz.lesson k l hl
    refine ⟨hModule, ?_⟩
    rw [hStays l (Table.find_eq_some_iff.mp hl).1]
    exact hSome
  · have hModules : (x.deleteModules p).courseModules.rows.filter
        ((x.deleteModules p).moduleIn orgID) = x.courseModules.rows.filter (x.moduleIn orgID) :=
      Table.filter_delete_eq (fun _ _ _ => rfl) hNot
    have hIn : (x.deleteModules p).lessons.rows.filter ((x.deleteModules p).lessonIn orgID) =
        (x.deleteLessons fun l => (x.courseModules.find l.moduleId).any p).lessons.rows.filter
          ((x.deleteLessons fun l => (x.courseModules.find l.moduleId).any p).lessonIn orgID) :=
      List.filter_congr fun l hl =>
        @Sound.lessonIn_congr _ (x.deleteModules p) _ hz (fun _ _ => rfl) l hl (hStays l hl)
    unfold content
    rw [hModules, hIn]
    rfl

theorem leaves_deleteCourses (hx : x.Sound) {p : Course → Bool}
    (hNot : ∀ c ∈ x.courses.rows, p c = true → courseIn orgID c = false) :
    x.Leaves (x.deleteCourses p) orgID := by
  have hModules : x.Leaves
      (x.deleteModules fun m => (x.courses.find m.courseId).any p) orgID := by
    refine leaves_deleteModules hx fun m _ hp => ?_
    obtain ⟨c, hc, hp⟩ := Option.any_eq_true _ _ |>.mp hp
    rw [moduleIn, hc]
    exact hNot c (Table.find_eq_some_iff.mp hc).1 hp
  refine hModules.trans ?_
  have hz := hModules.sound
  have hStays : ∀ m ∈
      (x.deleteModules fun m => (x.courses.find m.courseId).any p).courseModules.rows,
      (x.deleteCourses p).courses.find m.courseId = x.courses.find m.courseId := by
    intro m hm
    have hKept : (!(x.courses.find m.courseId).any p) = true := (List.mem_filter.mp hm).2
    rw [deleteCourses, Table.find_delete]
    cases hc : x.courses.find m.courseId with
    | none => rfl
    | some c =>
      rw [hc] at hKept
      simpa using hKept
  have hModuleIn := @Sound.moduleIn_congr _ _ orgID hStays
  refine ⟨⟨fun k c hc => ?_, fun k m hm => ?_, hz.lesson⟩, .of_eq rfl rfl rfl, ?_⟩
  · rw [deleteCourses, Table.find_delete] at hc
    exact hz.course k c (Option.filter_eq_some_iff.mp hc).1
  · obtain ⟨hCourse, hSome⟩ := hz.module k m hm
    refine ⟨hCourse, ?_⟩
    rw [hStays m (Table.find_eq_some_iff.mp hm).1]
    exact hSome
  · have hCourses : (x.deleteCourses p).courses.rows.filter (courseIn orgID) =
        x.courses.rows.filter (courseIn orgID) :=
      Table.filter_delete_eq (fun _ _ _ => rfl) hNot
    have hIn : (x.deleteCourses p).courseModules.rows.filter ((x.deleteCourses p).moduleIn orgID) =
        (x.deleteModules fun m => (x.courses.find m.courseId).any p).courseModules.rows.filter
          ((x.deleteModules fun m => (x.courses.find m.courseId).any p).moduleIn orgID) :=
      List.filter_congr hModuleIn
    have hLessons : (x.deleteCourses p).lessons.rows.filter ((x.deleteCourses p).lessonIn orgID) =
        (x.deleteModules fun m => (x.courses.find m.courseId).any p).lessons.rows.filter
          ((x.deleteModules fun m => (x.courses.find m.courseId).any p).lessonIn orgID) :=
      List.filter_congr fun l hl => hz.lessonIn_congr hModuleIn hl rfl
    unfold content
    rw [hCourses, hIn, hLessons]
    rfl

theorem leaves_deleteOrganization (hx : x.Sound) (hNot : orgID ≠ id) :
    x.Leaves (x.deleteOrganizations fun o => o.id = id) orgID := by
  have hCourses : x.Leaves (x.deleteCourses fun c =>
      (x.organizations.find c.organizationId).any fun o => o.id = id) orgID := by
    refine leaves_deleteCourses hx fun c _ hp => ?_
    obtain ⟨o, ho, hEq⟩ := Option.any_eq_true _ _ |>.mp hp
    have hKey : o.id = c.organizationId := Table.find_key ho
    have hOther : c.organizationId ≠ orgID := by
      rw [← hKey, of_decide_eq_true hEq]
      exact hNot.symm
    simp [courseIn, hOther]
  refine hCourses.trans ⟨⟨hCourses.sound.course, hCourses.sound.module, hCourses.sound.lesson⟩,
    .of_eq rfl rfl rfl, ?_⟩
  have hFind : (x.deleteOrganizations fun o => o.id = id).organizations.find orgID =
      x.organizations.find orgID := by
    rw [deleteOrganizations, Table.find_delete]
    cases ho : x.organizations.find orgID with
    | none => rfl
    | some o =>
      have hKey : o.id = orgID := Table.find_key ho
      simp [hKey, hNot]
  unfold content
  rw [hFind]
  rfl

/-- No row has ever had the id. -/
def isFresh (x : Store) (id : UUID) : Bool :=
  (x.orgOfCourse id).isNone && (x.courseOfModule id).isNone && (x.moduleOfLesson id).isNone

theorem leaves_insertOrganization (hx : x.Sound) (o : Organization) (hNot : orgID ≠ o.id) :
    x.Leaves (x.insertOrganization o).2 orgID := by
  unfold insertOrganization
  split
  · exact .refl hx
  · split
    · exact .refl hx
    · next organizations hInsert =>
      refine ⟨⟨hx.course, hx.module, hx.lesson⟩, .of_eq rfl rfl rfl, ?_⟩
      have hFind : organizations.find orgID = x.organizations.find orgID := by
        rw [Table.find_insert hInsert, if_neg hNot]
      unfold content
      dsimp only
      rw [hFind]
      rfl

/-- A table with a new row has the old ones. -/
theorem find_of_inserted {ρ : Type} {key : ρ → UUID} {t t' : Table ρ key} {r : ρ} {k : UUID}
    (hInsert : t.insert r = some t') (hSome : (t.find k).isSome = true) : t'.find k = t.find k := by
  have hk : k ≠ key r := by
    rintro rfl
    simp [Table.find_of_insert hInsert] at hSome
  rw [Table.find_insert hInsert, if_neg hk]

theorem update_of_some {f : UUID → Option UUID} {k a b : UUID} {o : Option UUID}
    (hFresh : f k = none) (h : f a = some b) : Function.update f k o a = some b := by
  have hk : a ≠ k := by
    rintro rfl
    cases hFresh.symm.trans h
  rw [Function.update_of_ne hk, h]

theorem leaves_insertCourse (hx : x.Sound) (c : Course) (hFresh : x.orgOfCourse c.id = none)
    (hNot : c.organizationId ≠ orgID) : x.Leaves (x.insertCourse c).2 orgID := by
  unfold insertCourse
  split
  · exact .refl hx
  · split
    · exact .refl hx
    · next courses hInsert =>
      have hFind : ∀ m ∈ x.courseModules.rows,
          courses.find m.courseId = x.courses.find m.courseId := fun m hm =>
        find_of_inserted hInsert (hx.module _ _ (Table.mem_rows_iff.mp hm)).2
      refine ⟨⟨fun k c' hc => ?_, fun k m hm => ?_, hx.lesson⟩, ⟨fun k o ho => ?_,
        fun _ _ h => h, fun _ _ h => h⟩, ?_⟩
      · rw [Table.find_insert hInsert] at hc
        split at hc
        · next hk =>
          cases hc
          exact hk ▸ Function.update_self ..
        · exact update_of_some hFresh (hx.course k c' hc)
      · obtain ⟨hCourse, hSome⟩ := hx.module k m hm
        exact ⟨hCourse, by rw [hFind m (Table.find_eq_some_iff.mp hm).1]; exact hSome⟩
      · exact update_of_some hFresh ho
      · have hCourses : courses.rows.filter (courseIn orgID) =
            x.courses.rows.filter (courseIn orgID) :=
          Table.filter_insert_eq hInsert (fun _ _ => rfl) (by simp [courseIn, hNot])
        have hModuleIn := @Sound.moduleIn_congr x { x with courses := courses } orgID hFind
        have hModules : x.courseModules.rows.filter (moduleIn { x with courses := courses } orgID) =
            x.courseModules.rows.filter (x.moduleIn orgID) := List.filter_congr hModuleIn
        have hLessons : x.lessons.rows.filter (lessonIn { x with courses := courses } orgID) =
            x.lessons.rows.filter (x.lessonIn orgID) :=
          List.filter_congr fun l hl => hx.lessonIn_congr hModuleIn hl rfl
        exact Content.ext rfl hCourses hModules hLessons

theorem leaves_insertModule (hx : x.Sound) (m : CourseModule)
    (hFresh : x.courseOfModule m.id = none) (hNot : x.orgOf (.course m.courseId) ≠ some orgID) :
    x.Leaves (x.insertModule m).2 orgID := by
  unfold insertModule
  split
  · exact .refl hx
  · next hParent =>
    split
    · exact .refl hx
    · next courseModules hInsert =>
      refine ⟨⟨hx.course, fun k m' hm => ?_, fun k l hl => ?_⟩, ⟨fun _ _ h => h,
        fun k o ho => update_of_some hFresh ho, fun _ _ h => h⟩, ?_⟩
      · rw [Table.find_insert hInsert] at hm
        split at hm
        · next hk =>
          cases hm
          exact ⟨hk ▸ Function.update_self ..,
            Option.isSome_iff_ne_none.mpr (by simpa using hParent)⟩
        · obtain ⟨hCourse, hSome⟩ := hx.module k m' hm
          exact ⟨update_of_some hFresh hCourse, hSome⟩
      · obtain ⟨hModule, hSome⟩ := hx.lesson k l hl
        exact ⟨hModule, by rw [find_of_inserted hInsert hSome]; exact hSome⟩
      · have hModules : courseModules.rows.filter (x.moduleIn orgID) =
            x.courseModules.rows.filter (x.moduleIn orgID) :=
          Table.filter_insert_eq hInsert (fun _ _ => rfl) (hx.moduleIn_eq_false hNot)
        have hLessons : x.lessons.rows.filter
            (lessonIn { x with courseModules := courseModules } orgID) =
              x.lessons.rows.filter (x.lessonIn orgID) :=
          List.filter_congr fun l hl =>
            @Sound.lessonIn_congr _ { x with courseModules := courseModules } _ hx (fun _ _ => rfl)
              l hl (find_of_inserted hInsert (hx.lesson _ _ (Table.mem_rows_iff.mp hl)).2)
        exact Content.ext rfl rfl hModules hLessons

theorem leaves_insertLesson (hx : x.Sound) (l : Lesson) (hFresh : x.moduleOfLesson l.id = none)
    (hNot : x.orgOf (.module l.moduleId) ≠ some orgID) : x.Leaves (x.insertLesson l).2 orgID := by
  unfold insertLesson
  split
  · exact .refl hx
  · next hParent =>
    split
    · exact .refl hx
    · next lessons hInsert =>
      refine ⟨⟨hx.course, hx.module, fun k l' hl => ?_⟩, ⟨fun _ _ h => h, fun _ _ h => h,
        fun k o ho => update_of_some hFresh ho⟩, ?_⟩
      · rw [Table.find_insert hInsert] at hl
        split at hl
        · next hk =>
          cases hl
          exact ⟨hk ▸ Function.update_self ..,
            Option.isSome_iff_ne_none.mpr (by simpa using hParent)⟩
        · obtain ⟨hModule, hSome⟩ := hx.lesson k l' hl
          exact ⟨update_of_some hFresh hModule, hSome⟩
      · have hLessons : lessons.rows.filter (x.lessonIn orgID) =
            x.lessons.rows.filter (x.lessonIn orgID) :=
          Table.filter_insert_eq hInsert (fun _ _ => rfl) (hx.lessonIn_eq_false hNot)
        exact Content.ext rfl rfl rfl hLessons

theorem isFresh_iff : x.isFresh id = true ↔
    x.orgOfCourse id = none ∧ x.courseOfModule id = none ∧ x.moduleOfLesson id = none := by
  simp [isFresh, and_assoc]

end Store

/-- What a statement that writes nothing of an organization leaves. -/
theorem Query.apply_leaves {fresh : UUID} (hx : x.Sound) (hFresh : x.isFresh fresh = true)
    (q : Query) (hTarget : ∀ n, q.target = some n → x.orgOf n ≠ some orgID)
    (hNew : ∀ createdBy name slug, q = .createOrganization createdBy name slug → orgID ≠ fresh) :
    x.Leaves (q.apply fresh x).2 orgID := by
  obtain ⟨hCourse, hModule, hLesson⟩ := Store.isFresh_iff.mp hFresh
  cases q with
  | getCourseByID id => exact .refl hx
  | getCourseModuleByID id => exact .refl hx
  | getLessonByID id => exact .refl hx
  | getOrgIDByLessonID id => exact .refl hx
  | createOrganization createdBy name slug =>
    exact Store.leaves_insertOrganization hx _ (hNew createdBy name slug rfl)
  | updateOrganization id name slug =>
    have hNot : orgID ≠ id := fun h => hTarget _ rfl (h ▸ rfl)
    unfold Query.apply
    dsimp only
    split
    · exact .refl hx
    · exact Store.leaves_updateOrganization hx _ hNot
  | updateOrganizationStatus id status =>
    exact Store.leaves_updateOrganization hx _ fun h => hTarget _ rfl (h ▸ rfl)
  | deleteOrganization id =>
    exact Store.leaves_deleteOrganization hx fun h => hTarget _ rfl (h ▸ rfl)
  | createCourse orgID' ownerId title description =>
    exact Store.leaves_insertCourse hx _ hCourse fun h => hTarget _ rfl (congrArg some h)
  | updateCourse id title description =>
    exact Store.leaves_updateCourse hx _ (fun _ => rfl) (hTarget _ rfl)
  | updateCourseStatus id status =>
    exact Store.leaves_updateCourse hx _ (fun _ => rfl) (hTarget _ rfl)
  | deleteCourse id =>
    refine Store.leaves_deleteCourses hx fun c hc hEq => Bool.eq_false_iff.mpr fun hIn => ?_
    rw [hx.courseIn_iff hc, of_decide_eq_true hEq] at hIn
    exact hTarget _ rfl hIn
  | createCourseModule courseId title orderIndex =>
    exact Store.leaves_insertModule hx _ hModule (hTarget _ rfl)
  | updateCourseModule id title orderIndex =>
    exact Store.leaves_updateModule hx _ (fun _ => rfl) (hTarget _ rfl)
  | deleteCourseModule id =>
    refine Store.leaves_deleteModules hx fun m hm hEq => Bool.eq_false_iff.mpr fun hIn => ?_
    rw [hx.moduleIn_iff hm, of_decide_eq_true hEq] at hIn
    exact hTarget _ rfl hIn
  | createLesson moduleId title description orderIndex maxAttempts =>
    exact Store.leaves_insertLesson hx _ hLesson (hTarget _ rfl)
  | updateLesson id settings =>
    exact Store.leaves_updateLesson hx _ (fun _ => rfl) (hTarget _ rfl)
  | updateLessonVideo id key duration =>
    exact Store.leaves_updateLesson hx _ (fun _ => rfl) (hTarget _ rfl)
  | updateLessonFeedbackMode id mode =>
    exact Store.leaves_updateLesson hx _ (fun _ => rfl) (hTarget _ rfl)
  | updateLessonDefaultInteractionConfig id config =>
    exact Store.leaves_updateLesson hx _ (fun _ => rfl) (hTarget _ rfl)
  | deleteLesson id =>
    refine Store.leaves_deleteLessons hx fun l hl hEq => Bool.eq_false_iff.mpr fun hIn => ?_
    rw [hx.lessonIn_iff hl, of_decide_eq_true hEq] at hIn
    exact hTarget _ rfl hIn

/-- There is always an organization that a statement does not write. -/
theorem Query.apply_sound {fresh : UUID} (hx : x.Sound) (hFresh : x.isFresh fresh = true)
    (q : Query) : (q.apply fresh x).2.Sound ∧ x.Le (q.apply fresh x).2 := by
  obtain ⟨orgID, hOrg⟩ : ∃ orgID : UUID, orgID ≠ fresh ∧
      ∀ n, q.target = some n → x.orgOf n ≠ some orgID := by
    obtain ⟨orgID, hOrg⟩ := Finset.exists_notMem
      (insert fresh ((q.target.bind x.orgOf).toFinset : Finset UUID))
    refine ⟨orgID, fun h => hOrg (by simp [h]), fun n hn h => hOrg (by simp [hn, h])⟩
  have hLeaves := q.apply_leaves hx hFresh hOrg.2 fun _ _ _ _ => hOrg.1
  exact ⟨hLeaves.sound, hLeaves.le⟩

end Store

end Richter.Catalog
