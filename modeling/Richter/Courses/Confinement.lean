import Richter.Courses.Handlers

/-! Which requests tell a student something of the content of a course that the student may not
open. -/

namespace Richter.Courses

open Lib
open Interactions (AttemptResponseInput LessonInteractionRow)
open Members (Claims canOpen requireCourseMember)

/-- The lesson belongs to the course. -/
def Store.inCourse (x : Store) (course lessonId : UUID) : Bool :=
  (x.courseOf lessonId).any fun c => c.id = course

/-- The stores differ at most in the content of the lessons of the course: the rows of these
lessons, their chunks, interactions and transcripts. -/
structure SameOutside (course : UUID) (x y : Store) : Prop where
  members : y.members = x.members
  courseDetails : y.courseDetails = x.courseDetails
  lower : y.lower = x.lower
  courseModules : y.courseModules = x.courseModules
  tasks : y.tasks = x.tasks
  lessonAnalyses : y.lessonAnalyses = x.lessonAnalyses
  lessonAttempts : y.lessonAttempts = x.lessonAttempts
  courseOf : ∀ l, y.courseOf l = x.courseOf l
  lessons : (y.lessons.rows.filter fun l => !x.inCourse course l.id) =
    x.lessons.rows.filter fun l => !x.inCourse course l.id
  lessonTranscriptChunks :
    (y.lessonTranscriptChunks.rows.filter fun c => !x.inCourse course c.lessonId) =
      x.lessonTranscriptChunks.rows.filter fun c => !x.inCourse course c.lessonId
  lessonInteractions :
    (y.lessonInteractions.rows.filter fun i => !x.inCourse course i.lessonId) =
      x.lessonInteractions.rows.filter fun i => !x.inCourse course i.lessonId
  transcripts : ∀ l, x.inCourse course l = false → y.transcripts l = x.transcripts l
  segments : ∀ l, x.inCourse course l = false → y.segments l = x.segments l

/-- An active student of the course's organization for whom `RequireCourseMember` fails. -/
structure Outsider (x : Store) (course : UUID) (claims : Claims) : Prop where
  student : ∃ c m, x.members.courses.find course = some c ∧
    x.members.organizationMembers.find (c.organizationId, claims.sub) = some m ∧
      m.role = .student ∧ m.status = .active
  denied : ∀ c, (requireCourseMember (some claims) course).run.eval (Members.answer x.members)
    (fun _ => none) ≠ .ok c

/-- The requests that reach the course's content without its access check: a list for one of its
lessons, and a preview grade for a response to an interaction that is one of the course's or that
there is not yet. -/
def reveals (x : Store) (course : UUID) : Call → Prop
  | .listLessonTranscriptChunks lessonID .. | .listLessonInteractions lessonID .. =>
      x.inCourse course lessonID = true
  | .previewGrade lessonID (some input) =>
      (x.courseOf lessonID).isSome ∧ (∃ l ∈ x.lessons.rows, x.inCourse course l.id = true) ∧
        ∀ i ∈ x.lessonInteractions.rows, i.id = input.interactionId →
          x.inCourse course i.lessonId = true
  | _ => False

section Answers

variable {x y : Store} {course : UUID}

theorem SameOutside.inCourse (h : SameOutside course x y) (l : UUID) :
    y.inCourse course l = x.inCourse course l := by
  rw [Store.inCourse, Store.inCourse, h.courseOf]

theorem SameOutside.find_lesson (h : SameOutside course x y) {l : UUID}
    (hl : x.inCourse course l = false) : y.lessons.find l = x.lessons.find l :=
  Table.find_eq_of_filter_eq (p := fun k => !x.inCourse course k) h.lessons (by rw [hl]; rfl)

theorem SameOutside.chunksOf (h : SameOutside course x y) {l : UUID}
    (hl : x.inCourse course l = false) : y.chunksOf l = x.chunksOf l := by
  unfold Store.chunksOf
  rw [filter_eq_of_filter_eq h.lessonTranscriptChunks]
  intro c _ hc
  rw [of_decide_eq_true hc, hl]
  rfl

theorem SameOutside.interactionsOf (h : SameOutside course x y) {l : UUID}
    (hl : x.inCourse course l = false) : y.interactionsOf l = x.interactionsOf l := by
  unfold Store.interactionsOf
  rw [filter_eq_of_filter_eq h.lessonInteractions]
  intro i _ hi
  rw [of_decide_eq_true hi, hl]
  rfl

/-- The lesson of a row belongs to the course of the row's module. -/
theorem inCourse_of_mem {l : Lesson} (hl : l ∈ x.lessons.rows) {m : CourseModule}
    (hm : x.courseModules.find l.moduleId = some m) (hCourse : x.inCourse course l.id = true) :
    m.courseId = course := by
  have hFind : x.lessons.find l.id = some l := Table.mem_rows_iff.mp hl
  simp only [Store.inCourse, Store.courseOf, Store.moduleOf, hFind, hm, Option.bind_some] at hCourse
  obtain ⟨c, hc, hId⟩ := (Option.any_eq_true _ _).mp hCourse
  exact (Table.find_key hc).symm.trans (of_decide_eq_true hId)

theorem SameOutside.mem_inCourse (h : SameOutside course x y) {l : Lesson}
    (hl : l ∈ x.lessons.rows ++ y.lessons.rows) {m : CourseModule}
    (hm : x.courseModules.find l.moduleId = some m) (hCourse : m.courseId ≠ course) :
    (!x.inCourse course l.id) = true := by
  rw [Bool.not_eq_true', ← Bool.not_eq_true]
  intro hIn
  rcases List.mem_append.mp hl with hl | hl
  · exact hCourse (inCourse_of_mem hl hm hIn)
  · rw [← h.inCourse] at hIn
    rw [← h.courseModules] at hm
    exact hCourse (inCourse_of_mem hl hm hIn)

theorem SameOutside.lessonsOf (h : SameOutside course x y) {id : UUID} {m : CourseModule}
    (hm : x.courseModules.find id = some m) (hCourse : m.courseId ≠ course) :
    y.lessonsOf id = x.lessonsOf id := by
  unfold Store.lessonsOf
  rw [filter_eq_of_filter_eq h.lessons]
  intro l hl hModule
  exact h.mem_inCourse hl ((of_decide_eq_true hModule).symm ▸ hm) hCourse

theorem SameOutside.lessonsOfCourse (h : SameOutside course x y) {c : UUID} (hc : c ≠ course) :
    y.lessonsOfCourse c = x.lessonsOfCourse c := by
  unfold Store.lessonsOfCourse
  simp only [List.filter_filterMap, h.courseModules]
  rw [filterMap_eq_of_filter_eq h.lessons]
  intro l hl hSome
  obtain ⟨p, hp⟩ := Option.isSome_iff_exists.mp hSome
  obtain ⟨hMap, hp⟩ := Option.filter_eq_some_iff.mp hp
  obtain ⟨m, hm, rfl⟩ := Option.map_eq_some_iff.mp hMap
  exact h.mem_inCourse hl hm ((of_decide_eq_true hp) ▸ hc)

end Answers

/-- The two stores answer alike whatever the handler comes to ask the first one, and the handler
ends with `ok` or in an error. -/
abbrev Agrees {α : Type} (x y : Store) (h : Handler α) (ok : α → Prop) : Prop :=
  Prog.Meets (Prog.Answers (answer x) fun _ => True)
    (fun _ o => ∀ env, True → answer y env o = answer x env o) h (fun a _ => ok a)
    (fun _ => True) ()

section Programs

variable {α β : Type} {x y : Store} {course : UUID} {claims : Claims} {q : Query}
  {ok : α → Prop}

theorem agrees_bind {h : Handler α} {f : α → Handler β} {ok' : β → Prop} (hh : Agrees x y h ok)
    (hf : ∀ a, ok a → Agrees x y (f a) ok') : Agrees x y (h >>= f) ok' :=
  hh.bind (fun a _ => hf a)

theorem agrees_perform {o : Op} (ho : ∀ env, answer y env o = answer x env o) :
    Agrees x y (perform o) fun _ => True :=
  (Prog.meets_perform o).mpr ⟨fun env _ => ho env, fun _ _ _ => trivial⟩

theorem agrees_query (hq : q.answer y = q.answer x) :
    Agrees x y (query q) fun r => ∀ a, r = .ok a → q.answer x = .ok a := by
  refine (Prog.meets_perform _).mpr ⟨?_, ?_⟩
  · intro env _
    simp only [answer, hq]
  · rintro r _ ⟨env, -, rfl⟩ a hr
    simp only [answer] at hr
    split at hr
    · cases hr
    · exact hr

theorem agrees_fetch (hq : q.answer y = q.answer x) :
    Agrees x y (fetch q) fun a => q.answer x = .ok a := by
  refine agrees_bind (agrees_query hq) fun r hr => ?_
  cases r with
  | ok a => exact hr a rfl
  | error e => trivial

theorem agrees_check (hMembers : y.members = x.members) {h : Members.Handler α}
    (hh : Prog.Meets (Prog.Answers (Members.answer x.members) fun _ => True) (fun _ _ => True) h
      (fun a _ => ok a) (fun _ => True) ()) : Agrees x y (check h) ok := by
  refine Prog.ensures_hoist.mpr ((Prog.Ensures.of_step hh ?_).mono ?_ fun _ _ => id)
  · rintro o _ r _ ⟨_, ⟨env, -, rfl⟩, rfl⟩
    exact ⟨env.failure, trivial, rfl⟩
  · intro _ o _ env _
    simp only [answer, hMembers]

/-- An access check whose result does not matter. -/
theorem agrees_check_any (hMembers : y.members = x.members) (h : Members.Handler α) :
    Agrees x y (check h) fun _ => True :=
  agrees_check hMembers ((Prog.ensures_true h.run fun _ _ => trivial).mono (fun _ _ => id) fun
    | .ok _, _ => id
    | .error _, _ => id)

theorem agrees_lift {h : Handler α} (hh : Agrees x y h ok) :
    Agrees x y (ExceptT.lift h.run) fun r => ∀ a, r = .ok a → ok a := by
  refine Prog.meets_lift.mpr (Prog.Ensures.mono hh (fun _ _ => id) fun r _ hr => ?_)
  rintro a rfl
  exact hr

theorem agrees_passes {h : Members.Handler α} (hh : Agrees x y (check h) ok) :
    Agrees x y (passes h) fun b => b = true → ∃ a, ok a := by
  refine agrees_bind (agrees_lift hh) fun r hr => ?_
  cases r with
  | ok a => exact fun _ => ⟨a, hr a rfl⟩
  | error e => exact nofun

end Programs

section Guards

variable {x y : Store} {course : UUID} {claims : Claims}

theorem Outsider.cannotOpen (h : Outsider x course claims) :
    canOpen x.members claims course = false :=
  (Bool.not_eq_true _).mp fun hOpen =>
    h.denied claims (Members.requireCourseMember_eval.mpr ⟨rfl, hOpen⟩)

/-- A system admin with an active account is nowhere an outsider. -/
theorem Outsider.role (h : Outsider x course claims) (hActive : claims.status = .active) :
    claims.role ≠ .admin := by
  intro hAdmin
  have hOpen := h.cannotOpen
  simp [canOpen, hActive, hAdmin] at hOpen

theorem agrees_requireAuthenticated (hMembers : y.members = x.members) :
    Agrees x y (check (Members.requireAuthenticated (some claims)))
      fun c => c = claims ∧ claims.status = .active := by
  refine agrees_check hMembers ((Members.meets_requireAuthenticated _).mpr
    ⟨fun c hc hActive => ?_, fun _ => trivial⟩)
  obtain rfl := Option.some.inj hc
  exact ⟨rfl, hActive⟩

theorem agrees_requireCourseMember (hMembers : y.members = x.members)
    (hOut : Outsider x course claims) (c : UUID) :
    Agrees x y (check (requireCourseMember (some claims) c)) fun _ => c ≠ course := by
  refine agrees_check hMembers ((Members.requireCourseMember_meets _ claims c).mono ?_
    fun _ _ => trivial)
  rintro _ _ ⟨-, hOpen⟩ rfl
  rw [hOut.cannotOpen] at hOpen
  cases hOpen

/-- The check by lesson passes an outsider only for lessons outside the course. -/
theorem agrees_requireCourseMemberByLesson (hxy : SameOutside course x y)
    (hOut : Outsider x course claims) (l : UUID) :
    Agrees x y (requireCourseMemberByLesson (some claims) l) fun _ =>
      x.inCourse course l = false := by
  refine agrees_bind (agrees_requireAuthenticated hxy.members) ?_
  rintro c ⟨rfl, hActive⟩
  split
  · next hAdmin => exact absurd hAdmin (hOut.role hActive)
  · have hInfo : (Query.getCourseAccessInfoByLessonID l).answer y =
        (Query.getCourseAccessInfoByLessonID l).answer x := congrArg one (hxy.courseOf l)
    refine agrees_bind (agrees_query hInfo) fun r hr => ?_
    split
    · trivial
    · trivial
    · next info =>
      have hCourse : x.courseOf l = some info := one_eq_ok.mp (hr info rfl)
      refine (agrees_requireCourseMember hxy.members hOut info.id).mono (fun _ _ hNe => ?_)
        fun _ => id
      simpa [Store.inCourse, hCourse] using hNe

end Guards

section Handlers

variable {x y : Store} {course : UUID} {claims : Claims} (hxy : SameOutside course x y)
  (hOut : Outsider x course claims)
include hxy hOut

theorem agrees_getLessonById (l : UUID) :
    Agrees x y (getLessonById (some claims) l) fun _ => True := by
  refine agrees_bind (agrees_requireCourseMemberByLesson hxy hOut l) fun _ hl => ?_
  exact agrees_bind (agrees_fetch (congrArg one (hxy.find_lesson hl))) fun _ _ => trivial

theorem agrees_listLessons (m : UUID) (limit offset : Nat) :
    Agrees x y (listLessons (some claims) m limit offset) fun _ => True := by
  have hModule : (Query.getCourseModuleByID m).answer y =
      (Query.getCourseModuleByID m).answer x := by
    simp only [Query.answer, hxy.courseModules]
  refine agrees_bind (agrees_fetch hModule) fun module hFind => ?_
  refine agrees_bind (agrees_requireCourseMember hxy.members hOut _) fun _ hCourse => ?_
  refine agrees_bind (agrees_fetch ?_) fun _ _ => trivial
  simp only [Query.answer, hxy.lessonsOf (one_eq_ok.mp hFind) hCourse]

theorem agrees_listLessonsByCourse (c : UUID) (limit offset : Nat) :
    Agrees x y (listLessonsByCourse (some claims) c limit offset) fun _ => True := by
  refine agrees_bind (agrees_requireCourseMember hxy.members hOut c) fun _ hCourse => ?_
  refine agrees_bind (agrees_fetch ?_) fun _ _ => trivial
  simp only [Query.answer, hxy.lessonsOfCourse hCourse]

omit hOut in
theorem agrees_derivedAnalysis (lesson : Lesson) (latest : List TaskQueue.Task) :
    Agrees x y (derivedAnalysis lesson latest) fun _ => True := by
  have hAnalysis : (Query.getLessonAnalysis lesson.id).answer y =
      (Query.getLessonAnalysis lesson.id).answer x := by
    simp only [Query.answer, hxy.lessonAnalyses]
  unfold derivedAnalysis
  split
  · refine agrees_bind (agrees_query hAnalysis) fun r _ => ?_
    split
    · trivial
    · split <;> trivial
    · trivial
  · trivial

omit hOut in
theorem agrees_hasSubmitted (isTeacher : Bool) (l : UUID) :
    Agrees x y (hasSubmitted (some claims) isTeacher l) fun _ => True := by
  unfold hasSubmitted
  split
  · trivial
  · refine agrees_bind (agrees_lift (agrees_check_any hxy.members _)) fun r _ => ?_
    cases r with
    | error e => trivial
    | ok c =>
      have hAttempt : (Query.getMyLessonAttempt l c.sub).answer y =
          (Query.getMyLessonAttempt l c.sub).answer x := by
        simp only [Query.answer, hxy.lessonAttempts]
      refine agrees_bind (agrees_query hAttempt) fun r _ => ?_
      split <;> trivial

omit hOut in
theorem agrees_loadTranscript (status : Lessons.LessonAnalysisStatus) {l : UUID}
    (hl : x.inCourse course l = false) : Agrees x y (loadTranscript status l) fun _ => True := by
  unfold loadTranscript
  split
  · refine agrees_bind (agrees_perform fun env => ?_) fun _ _ =>
      agrees_bind (agrees_perform fun env => ?_) fun _ _ => trivial
    · simp only [answer, hxy.transcripts l hl]
    · simp only [answer, hxy.segments l hl]
  · trivial

omit hOut in
theorem agrees_showAnalysis (cfg : AiCfg) (orgID : UUID) {lesson : Lesson}
    (latest : List TaskQueue.Task) (analysis : Lessons.LessonAnalysis)
    (hl : x.inCourse course lesson.id = false) :
    Agrees x y (showAnalysis cfg (some claims) orgID lesson latest analysis) fun _ => True := by
  have hInts : (Query.listLessonInteractions lesson.id cfg.interactionsLimit 0).answer y =
      (Query.listLessonInteractions lesson.id cfg.interactionsLimit 0).answer x := by
    simp only [Query.answer, hxy.interactionsOf hl]
  have hChunks : (Query.listLessonTranscriptChunks lesson.id cfg.chunksLimit 0).answer y =
      (Query.listLessonTranscriptChunks lesson.id cfg.chunksLimit 0).answer x := by
    simp only [Query.answer, hxy.chunksOf hl]
  refine agrees_bind (agrees_query hInts) fun ints _ => ?_
  refine agrees_bind (agrees_query hChunks) fun chunks _ => ?_
  refine agrees_bind (agrees_perform fun env => rfl) fun now _ => ?_
  refine agrees_bind (agrees_loadTranscript hxy _ hl) fun texts _ => ?_
  refine agrees_bind (agrees_passes (agrees_check_any hxy.members _)) fun isTeacher _ => ?_
  exact agrees_bind (agrees_hasSubmitted hxy isTeacher lesson.id) fun _ _ => trivial

theorem agrees_getLessonAnalysis (cfg : AiCfg) (l : UUID) :
    Agrees x y (getLessonAnalysis cfg (some claims) l) fun _ => True := by
  have hInfo : (Query.getCourseAccessInfoByLessonID l).answer y =
      (Query.getCourseAccessInfoByLessonID l).answer x := congrArg one (hxy.courseOf l)
  have hTasks : (Query.listLatestTaskPerLesson l).answer y =
      (Query.listLatestTaskPerLesson l).answer x := by
    simp only [Query.answer, hxy.tasks]
  refine agrees_bind (agrees_requireCourseMemberByLesson hxy hOut l) fun _ hl => ?_
  refine agrees_bind (agrees_fetch hInfo) fun courseInfo _ => ?_
  refine agrees_bind (agrees_fetch (congrArg one (hxy.find_lesson hl))) fun lesson hFind => ?_
  refine agrees_bind (agrees_fetch hTasks) fun latest _ => ?_
  refine agrees_bind (agrees_derivedAnalysis hxy lesson latest) fun analysis _ => ?_
  split
  · trivial
  · have hId : lesson.id = l := Table.find_key (one_eq_ok.mp hFind)
    exact agrees_showAnalysis hxy cfg _ latest _ (by rw [hId]; exact hl)

omit hOut in
/-- The role check passes active accounts only. -/
theorem agrees_requireOrgRole (orgID : UUID) (roles : List Members.OrganizationRole) :
    Agrees x y (check (Members.requireOrgRole (some claims) orgID roles)) fun _ =>
      claims.status = .active := by
  refine agrees_check hxy.members ((Members.requireOrgRole_meets _ claims orgID _).mono ?_
    fun _ _ => trivial)
  rintro _ _ ⟨-, hRole⟩
  simp only [Members.hasOrgRole, Bool.and_eq_true, decide_eq_true_eq] at hRole
  exact hRole.1

omit hOut in
theorem agrees_listLessonTranscriptChunks {l : UUID}
    (hl : claims.status = .active → x.inCourse course l = false) (limit offset : Nat) :
    Agrees x y (listLessonTranscriptChunks (some claims) l limit offset) fun _ => True := by
  have hOrg : (Query.getOrgIDByLessonID l).answer y = (Query.getOrgIDByLessonID l).answer x := by
    simp only [Query.answer, hxy.courseOf]
  refine agrees_bind (agrees_fetch hOrg) fun orgID _ => ?_
  refine agrees_bind (agrees_requireOrgRole hxy orgID _) fun _ hActive => ?_
  refine agrees_bind (agrees_fetch ?_) fun _ _ => trivial
  simp only [Query.answer, hxy.chunksOf (hl hActive)]

omit hOut in
theorem agrees_requireTeacherOrMember (orgID : UUID) :
    Agrees x y (requireTeacherOrMember (some claims) orgID) fun _ => claims.status = .active := by
  refine agrees_bind (agrees_passes (agrees_requireOrgRole hxy orgID _)) fun _ hTeacher => ?_
  split
  · next hTrue =>
    obtain ⟨_, hActive⟩ := hTeacher hTrue
    exact hActive
  · exact agrees_bind (agrees_requireOrgRole hxy orgID _) fun _ hActive => hActive

omit hOut in
theorem agrees_listLessonInteractions {l : UUID}
    (hl : claims.status = .active → x.inCourse course l = false) (limit offset : Nat) :
    Agrees x y (listLessonInteractions (some claims) l limit offset) fun _ => True := by
  have hOrg : (Query.getOrgIDByLessonID l).answer y = (Query.getOrgIDByLessonID l).answer x := by
    simp only [Query.answer, hxy.courseOf]
  refine agrees_bind (agrees_fetch hOrg) fun orgID _ => ?_
  refine agrees_bind (agrees_requireTeacherOrMember hxy orgID) fun isTeacher hActive => ?_
  refine agrees_bind (agrees_fetch ?_) fun _ _ => trivial
  simp only [Query.answer, hxy.interactionsOf (hl hActive)]

omit hOut in
/-- A target whose lesson and interaction are the same in both stores. -/
theorem agrees_lookupSingleGradeTarget {l : UUID} {input : AttemptResponseInput}
    (hLesson : y.lessons.find l = x.lessons.find l)
    (hInteraction : y.lessonInteractions.find input.interactionId =
      x.lessonInteractions.find input.interactionId) :
    Agrees x y (lookupSingleGradeTarget l (some input)) fun _ => True := by
  have hOrg : (Query.getOrgIDByLessonID l).answer y = (Query.getOrgIDByLessonID l).answer x := by
    simp only [Query.answer, hxy.courseOf]
  refine agrees_bind (agrees_fetch hOrg) fun orgID _ => ?_
  refine agrees_bind (agrees_fetch (congrArg one hLesson)) fun lesson _ => ?_
  refine agrees_bind (agrees_fetch (congrArg one hInteraction)) fun interaction _ => ?_
  split
  · trivial
  · split
    · trivial
    · split <;> trivial

/-- What follows the look-up of the target reads no content. -/
theorem agrees_previewGrade {l : UUID} {respInput : Option AttemptResponseInput} (kv : Bool)
    (hTarget : Agrees x y (lookupSingleGradeTarget l respInput) fun _ => True) :
    Agrees x y (previewGrade (some claims) kv l respInput) fun _ => True := by
  refine agrees_bind (agrees_check_any hxy.members _) fun c _ => ?_
  refine agrees_bind hTarget fun target _ => ?_
  refine agrees_bind (agrees_requireCourseMemberByLesson hxy hOut l) fun _ _ => ?_
  refine agrees_bind (?_ : Agrees x y _ fun _ => True) fun _ _ => ?_
  · unfold requirePreview
    split
    · trivial
    · refine agrees_bind (agrees_passes (agrees_check_any hxy.members _)) fun isTeacher _ => ?_
      split <;> trivial
  · refine agrees_bind (agrees_perform fun env => rfl) fun grade _ => ?_
    split
    · trivial
    · split
      · exact agrees_bind (agrees_perform fun env => rfl) fun _ _ => trivial
      · trivial

end Handlers

section Runs

variable {α : Type} {z : Store} {claims : Claims}

theorem eval_fetch_bind {q : Query} {a : q.Result} (h : q.answer z = .ok a)
    (f : q.Result → Handler α) (env : Nat → Env) :
    (fetch q >>= f).run.eval (answer z) env =
      match (env 0).failure with
      | some e => .error (connectDBError e)
      | none => (f a).run.eval (answer z) fun n => env (n + 1) := by
  show Prog.eval (answer z) (ExceptT.run (do
    let a ← (match (answer z (env 0) (.conn q) : Except DbError q.Result) with
      | .ok a => pure a
      | .error e => throw (connectDBError e) : Handler q.Result)
    f a)) (fun n => env (n + 1)) = _
  simp only [answer]
  cases (env 0).failure with
  | some e => rfl
  | none =>
    simp only [h]
    rfl

theorem eval_check (h : Members.Handler α) :
    (check h).run.eval (answer z) (fun _ => {}) =
      h.run.eval (Members.answer z.members) fun _ => none :=
  Prog.eval_hoist Env.failure (fun _ _ => rfl) fun _ => {}

theorem exists_lesson {l : UUID} {c : Members.Course} (h : z.courseOf l = some c) :
    ∃ lesson, z.lessons.find l = some lesson := by
  obtain ⟨m, hm, -⟩ := Option.bind_eq_some_iff.mp h
  obtain ⟨lesson, hRow, -⟩ := Option.bind_eq_some_iff.mp hm
  exact ⟨lesson, hRow⟩

theorem answer_getOrgIDByLessonID {l : UUID} {c : Members.Course} (h : z.courseOf l = some c) :
    (Query.getOrgIDByLessonID l).answer z = .ok c.organizationId := by
  simp [Query.answer, h]

/-- A preview grade for an interaction of another lesson is refused whatever the lesson is. -/
theorem eval_lookup_foreign {l : UUID} {input : AttemptResponseInput} {c : Members.Course}
    {lesson : Lesson} {i : LessonInteractionRow} (hCourse : z.courseOf l = some c)
    (hLesson : z.lessons.find l = some lesson)
    (hFind : z.lessonInteractions.find input.interactionId = some i) (hForeign : i.lessonId ≠ l)
    (env : Nat → Env) :
    (lookupSingleGradeTarget l (some input)).run.eval (answer z) env =
      .error (match (env 0).failure, (env 1).failure, (env 2).failure with
        | some e, _, _ | none, some e, _ | none, none, some e => connectDBError e
        | none, none, none =>
            .connect .invalidArgument "interaction does not belong to lesson") := by
  unfold lookupSingleGradeTarget
  rw [eval_fetch_bind (answer_getOrgIDByLessonID hCourse)]
  cases (env 0).failure with
  | some e => rfl
  | none =>
    refine (eval_fetch_bind (q := .getLessonByID l) (one_eq_ok.mpr hLesson) _ _).trans ?_
    cases (env 1).failure with
    | some e => rfl
    | none =>
      refine (eval_fetch_bind (q := .getLessonInteractionByID input.interactionId)
        (one_eq_ok.mpr hFind) _ _).trans ?_
      cases (env 2).failure with
      | some e => rfl
      | none =>
        simp only [if_pos hForeign]
        rfl

theorem reply_previewGrade_error {l : UUID} {respInput : Option AttemptResponseInput} {e : Error}
    {env : Nat → Env} (cfg : Cfg) (hActive : claims.status = .active)
    (h : (lookupSingleGradeTarget l respInput).run.eval (answer z) env = .error e) :
    reply cfg (some claims) (.previewGrade l respInput) env z = .error e := by
  have hAuth : check (Members.requireAuthenticated (some claims)) = pure claims := by
    simp only [check, Members.requireAuthenticated, hActive, if_true]
    rfl
  refine Prog.eval_exceptT_error (x := previewGrade (some claims) cfg.kv l respInput) ?_ _
  unfold previewGrade
  rw [hAuth]
  exact Prog.eval_exceptT_error h _

end Runs

section Confined

variable {x y : Store} {course : UUID} {claims : Claims} (hxy : SameOutside course x y)
include hxy

/-- An interaction of a lesson outside the course is in both stores. -/
theorem SameOutside.find_interaction {i : LessonInteractionRow}
    (hi : i ∈ x.lessonInteractions.rows) (hOutside : x.inCourse course i.lessonId = false) :
    y.lessonInteractions.find i.id = some i := by
  have hKept : i ∈ x.lessonInteractions.rows.filter fun i => !x.inCourse course i.lessonId :=
    List.mem_filter.mpr ⟨hi, by rw [hOutside]; rfl⟩
  rw [← hxy.lessonInteractions] at hKept
  exact Table.mem_rows_iff.mp (List.mem_filter.mp hKept).1

/-- A course without lessons has no content to differ in. -/
theorem SameOutside.interactions_of_empty (hNone : ∀ l, x.inCourse course l = false) :
    y.lessonInteractions.rows = x.lessonInteractions.rows := by
  have hRows := hxy.lessonInteractions
  simpa [hNone] using hRows

omit hxy in
theorem reply_eq_of_agrees {α : Type} {h : Handler α} {f : α → Reply}
    (hh : Agrees x y h fun _ => True) (env : Nat → Env) :
    (h >>= fun a => pure (f a)).run.eval (answer y) env =
      (h >>= fun a => pure (f a)).run.eval (answer x) env := by
  have hBind : Agrees x y (h >>= fun a => pure (f a)) fun _ => True :=
    agrees_bind hh fun _ _ => trivial
  exact hBind.eval_congr fun _ => trivial

theorem reply_previewGrade_confined (cfg : Cfg) (hOut : Outsider x course claims) {l : UUID}
    {respInput : Option AttemptResponseInput}
    (hNot : claims.status = .active → ¬ reveals x course (.previewGrade l respInput))
    (env : Nat → Env) :
    reply cfg (some claims) (.previewGrade l respInput) env y =
      reply cfg (some claims) (.previewGrade l respInput) env x := by
  by_cases hActive : claims.status = .active
  swap
  · refine reply_eq_of_agrees (agrees_bind (agrees_requireAuthenticated hxy.members) ?_) env
    exact fun _ hAuth => absurd hAuth.2 hActive
  cases respInput with
  | none =>
    have hLookup : Agrees x y (lookupSingleGradeTarget l none) fun _ => True := trivial
    exact reply_eq_of_agrees (agrees_previewGrade hxy hOut _ hLookup) env
  | some input =>
    cases hCourse : x.courseOf l with
    | none =>
      refine reply_eq_of_agrees (agrees_previewGrade hxy hOut _ ?_) env
      refine agrees_bind (agrees_fetch ?_) fun _ hOrg => ?_
      · simp only [Query.answer, hxy.courseOf]
      · simp [Query.answer, hCourse] at hOrg
    | some c =>
      by_cases hLessons : ∃ lesson ∈ x.lessons.rows, x.inCourse course lesson.id = true
      · obtain ⟨i, hi, hId, hOutside⟩ : ∃ i ∈ x.lessonInteractions.rows,
            i.id = input.interactionId ∧ x.inCourse course i.lessonId = false := by
          by_contra hAll
          push Not at hAll
          exact hNot hActive ⟨by simp [hCourse], hLessons,
            fun i hi hId => (Bool.not_eq_false _).mp (hAll i hi hId)⟩
        have hFind : x.lessonInteractions.find input.interactionId = some i := by
          rw [← hId]
          exact Table.mem_rows_iff.mp hi
        have hFind' : y.lessonInteractions.find input.interactionId = some i := by
          rw [← hId]
          exact hxy.find_interaction hi hOutside
        by_cases hLesson : i.lessonId = l
        · refine reply_eq_of_agrees (agrees_previewGrade hxy hOut _ ?_) env
          exact agrees_lookupSingleGradeTarget hxy (hxy.find_lesson (hLesson ▸ hOutside))
            (hFind'.trans hFind.symm)
        · obtain ⟨lesson, hRow⟩ := exists_lesson hCourse
          obtain ⟨lesson', hRow'⟩ := exists_lesson ((hxy.courseOf l).trans hCourse)
          have hSame := eval_lookup_foreign hCourse hRow hFind hLesson env
          have hSame' := eval_lookup_foreign ((hxy.courseOf l).trans hCourse) hRow' hFind' hLesson
            env
          rw [reply_previewGrade_error cfg hActive hSame,
            reply_previewGrade_error cfg hActive hSame']
      · have hNone : ∀ k, x.inCourse course k = false := by
          intro k
          rw [← Bool.not_eq_true]
          intro hIn
          obtain ⟨c', hCourse', -⟩ := (Option.any_eq_true _ _).mp hIn
          obtain ⟨lesson, hRow⟩ := exists_lesson hCourse'
          refine hLessons ⟨lesson, (Table.find_eq_some_iff.mp hRow).1, ?_⟩
          rw [Table.find_key hRow]
          exact hIn
        refine reply_eq_of_agrees (agrees_previewGrade hxy hOut _ ?_) env
        refine agrees_lookupSingleGradeTarget hxy (hxy.find_lesson (hNone l)) ?_
        rw [Table.find, Table.find, hxy.interactions_of_empty hNone]

/-- A request that does not reveal the course's content is answered the same in both stores. -/
theorem reply_confined (cfg : Cfg) (hOut : Outsider x course claims) {call : Call}
    (hNot : claims.status = .active → ¬ reveals x course call) (env : Nat → Env) :
    reply cfg (some claims) call env y = reply cfg (some claims) call env x := by
  have hOutside : ∀ l, (claims.status = .active → ¬ x.inCourse course l = true) →
      claims.status = .active → x.inCourse course l = false :=
    fun l hl hActive => (Bool.not_eq_true _).mp (hl hActive)
  cases call with
  | getLessonById l => exact reply_eq_of_agrees (agrees_getLessonById hxy hOut l) env
  | listLessons m limit offset =>
    exact reply_eq_of_agrees (agrees_listLessons hxy hOut m limit offset) env
  | listLessonsByCourse c limit offset =>
    exact reply_eq_of_agrees (agrees_listLessonsByCourse hxy hOut c limit offset) env
  | getLessonAnalysis l => exact reply_eq_of_agrees (agrees_getLessonAnalysis hxy hOut cfg.ai l) env
  | listLessonTranscriptChunks l limit offset =>
    exact reply_eq_of_agrees
      (agrees_listLessonTranscriptChunks hxy (hOutside l hNot) limit offset) env
  | listLessonInteractions l limit offset =>
    exact reply_eq_of_agrees (agrees_listLessonInteractions hxy (hOutside l hNot) limit offset) env
  | previewGrade l respInput => exact reply_previewGrade_confined hxy cfg hOut hNot env

end Confined

end Richter.Courses
