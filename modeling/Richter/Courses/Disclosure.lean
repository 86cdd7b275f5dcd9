import Richter.Courses.Confinement

/-! The requests that disclose the content of a course to a student of the organization who may not
open it: for each there are two stores that only differ in the content and are answered from
differently. -/

namespace Richter.Courses

open Lib
open Interactions (Answer AttemptResponseInput LessonInteractionRow)
open Members (Claims)

section Stores

variable {x : Store} {course l : UUID}

/-- Any number of chunks can be put in the place of those of a lesson of the course. -/
theorem exists_chunks (hl : x.inCourse course l = true) (n : Nat) :
    ∃ y, SameOutside course x y ∧ (y.chunksOf l).length = n := by
  obtain ⟨t, hKept, hLength⟩ := x.lessonTranscriptChunks.exists_replaced
    (fun c => c.lessonId = l) (fun id => ⟨id, l, 0, 0, 0, "", 0, none⟩) (fun _ => rfl)
    (fun _ => decide_eq_true rfl) n
  refine ⟨{ x with lessonTranscriptChunks := t },
    ⟨rfl, rfl, rfl, rfl, rfl, rfl, rfl,
     fun _ => rfl, rfl, ?_, rfl, fun _ _ => rfl, fun _ _ => rfl⟩, ?_⟩
  · refine filter_eq_of_filter_eq hKept fun c _ hc => ?_
    rw [Bool.not_eq_true', decide_eq_false_iff_not]
    rintro rfl
    rw [hl] at hc
    cases hc
  · rw [Store.chunksOf, List.length_insertionSort]
    exact hLength

theorem exists_interactions (hl : x.inCourse course l = true) (n : Nat) :
    ∃ y, SameOutside course x y ∧ (y.interactionsOf l).length = n := by
  obtain ⟨t, hKept, hLength⟩ := x.lessonInteractions.exists_replaced
    (fun i => i.lessonId = l)
    (fun id => ⟨id, l, none, "mcq", 0, 0, "", "", .null, 1, "manual", none⟩) (fun _ => rfl)
    (fun _ => decide_eq_true rfl) n
  refine ⟨{ x with lessonInteractions := t },
    ⟨rfl, rfl, rfl, rfl, rfl, rfl, rfl,
     fun _ => rfl, rfl, rfl, ?_, fun _ _ => rfl, fun _ _ => rfl⟩, ?_⟩
  · refine filter_eq_of_filter_eq hKept fun i _ hi => ?_
    rw [Bool.not_eq_true', decide_eq_false_iff_not]
    rintro rfl
    rw [hl] at hi
    cases hi
  · rw [Store.interactionsOf, List.length_insertionSort]
    exact hLength

end Stores

section Runs

variable {x y : Store} {course l : UUID} {claims : Claims}

theorem eval_passes_false {h : Members.Handler Claims}
    (hh : ∀ c, h.run.eval (Members.answer y.members) (fun _ => none) ≠ .ok c) :
    (passes h).run.eval (answer y) (fun _ => {}) = .ok false := by
  unfold passes
  rw [Prog.eval_exceptT_bind]
  have hLift : (ExceptT.lift (check h).run : Handler (Except Error Claims)).run.eval (answer y)
      (fun _ => {}) = .ok (h.run.eval (Members.answer y.members) fun _ => none) := by
    refine (Prog.eval_bind (p := (check h).run) _ _).trans ?_
    rw [eval_check]
    rfl
  rw [hLift]
  cases hRun : h.run.eval (Members.answer y.members) fun _ => none with
  | ok c => exact absurd hRun (hh c)
  | error e => rfl

/-- What an outsider has in the organization of the course. -/
theorem Outsider.roles (hOut : Outsider x course claims) (hActive : claims.status = .active)
    (hl : x.inCourse course l = true) : ∃ c, x.courseOf l = some c ∧
      Members.hasOrgRole x.members claims c.organizationId [.owner, .admin, .teacher, .student] =
        true ∧
      Members.hasOrgRole x.members claims c.organizationId teacherRoles = false := by
  obtain ⟨c, m, hFind, hMember, hRole, hStatus⟩ := hOut.student
  obtain ⟨c', hCourse, hId⟩ := (Option.any_eq_true _ _).mp hl
  obtain rfl : c' = c := by
    obtain ⟨m', -, hFind'⟩ := Option.bind_eq_some_iff.mp hCourse
    rw [← Table.find_key hFind', of_decide_eq_true hId, hFind] at hFind'
    exact (Option.some.inj hFind').symm
  refine ⟨c', hCourse, ?_, ?_⟩
  · simp [Members.hasOrgRole, hActive, hMember, hRole, hStatus]
  · simp [Members.hasOrgRole, hActive, hOut.role hActive, hMember, hRole, teacherRoles]

variable (cfg : Cfg) (hxy : SameOutside course x y) (hOut : Outsider x course claims)
  (hActive : claims.status = .active) (hl : x.inCourse course l = true) (limit offset : Nat)
include hxy hOut hActive hl

theorem reply_listLessonTranscriptChunks :
    reply cfg (some claims) (.listLessonTranscriptChunks l limit offset) (fun _ => {}) y =
      .ok (.chunks ((page (if limit = 0 then 500 else limit) offset (y.chunksOf l)).map
        (chunkToProto parseInteractionConfig))) := by
  obtain ⟨c, hCourse, hMember, -⟩ := hOut.roles hActive hl
  replace hCourse : y.courseOf l = some c := (hxy.courseOf l).trans hCourse
  have hCheck : (check (Members.requireOrgMember (some claims) c.organizationId)).run.eval
      (answer y) (fun _ => {}) = .ok claims := by
    rw [eval_check, hxy.members]
    exact Members.requireOrgRole_eval.mpr ⟨rfl, hMember⟩
  have hList : (listLessonTranscriptChunks (some claims) l limit offset).run.eval (answer y)
      (fun _ => {}) = .ok ((page (if limit = 0 then 500 else limit) offset (y.chunksOf l)).map
        (chunkToProto parseInteractionConfig)) := by
    unfold listLessonTranscriptChunks
    rw [eval_fetch_bind (answer_getOrgIDByLessonID hCourse)]
    refine (Prog.eval_exceptT_bind _ _ _).trans ?_
    rw [hCheck]
    exact eval_fetch_bind (q := .listLessonTranscriptChunks l _ offset) rfl _ _
  refine (Prog.eval_exceptT_bind (listLessonTranscriptChunks ..) _ _).trans ?_
  rw [hList]
  rfl

theorem reply_listLessonInteractions :
    reply cfg (some claims) (.listLessonInteractions l limit offset) (fun _ => {}) y =
      .ok (.interactions ((page (if limit = 0 then 500 else limit) offset (y.interactionsOf l)).map
        fun r => Interactions.interactionToProto r true)) := by
  obtain ⟨c, hCourse, hMember, hTeacher⟩ := hOut.roles hActive hl
  replace hCourse : y.courseOf l = some c := (hxy.courseOf l).trans hCourse
  have hCheck : (check (Members.requireOrgMember (some claims) c.organizationId)).run.eval
      (answer y) (fun _ => {}) = .ok claims := by
    rw [eval_check, hxy.members]
    exact Members.requireOrgRole_eval.mpr ⟨rfl, hMember⟩
  have hPasses : (passes (Members.requireOrgRole (some claims) c.organizationId
      teacherRoles)).run.eval (answer y) (fun _ => {}) = .ok false := by
    refine eval_passes_false fun c' hRun => ?_
    rw [hxy.members, Members.requireOrgRole_eval, hTeacher] at hRun
    cases hRun.2
  have hMemberOnly : (requireTeacherOrMember (some claims) c.organizationId).run.eval (answer y)
      (fun _ => {}) = .ok false := by
    unfold requireTeacherOrMember
    rw [Prog.eval_exceptT_bind, hPasses]
    refine (Prog.eval_exceptT_bind (check _) _ _).trans ?_
    rw [hCheck]
    rfl
  have hList : (listLessonInteractions (some claims) l limit offset).run.eval (answer y)
      (fun _ => {}) =
        .ok ((page (if limit = 0 then 500 else limit) offset (y.interactionsOf l)).map
          fun r => Interactions.interactionToProto r true) := by
    unfold listLessonInteractions
    rw [eval_fetch_bind (answer_getOrgIDByLessonID hCourse)]
    refine (Prog.eval_exceptT_bind _ _ _).trans ?_
    rw [hMemberOnly]
    exact eval_fetch_bind (q := .listLessonInteractions l _ offset) rfl _ _
  refine (Prog.eval_exceptT_bind (listLessonInteractions ..) _ _).trans ?_
  rw [hList]
  rfl

end Runs

section Preview

variable {x : Store} {course l : UUID} {claims : Claims} {input : AttemptResponseInput}

/-- A kind whose handler does not take the answer. -/
def otherKind : Answer → String
  | .mcqSelected _ => "writing"
  | _ => "mcq"

theorem otherKind_refuses (a : Answer) : ∃ toJSON message,
    Interactions.responseProtoToJSON (Interactions.dbStringToKind (otherKind a)) = some toJSON ∧
      toJSON a = .error (.connect .invalidArgument message) := by
  cases a <;> exact ⟨_, _, rfl, rfl⟩

/-- The store without the interaction. -/
def Store.withoutInteraction (x : Store) (id : UUID) : Store :=
  { x with lessonInteractions := x.lessonInteractions.delete fun i => i.id = id }

/-- The store with an interaction of the lesson in its place. -/
def Store.withInteraction (x : Store) (id lessonId : UUID) (kind : String) : Store :=
  { x with
    lessonInteractions := (x.withoutInteraction id).lessonInteractions.append
      ⟨id, lessonId, none, kind, 0, 0, "", "", .null, 1, "manual", none⟩ (by
        intro hMem
        obtain ⟨i, hi, hId⟩ := List.mem_map.mp hMem
        simpa [hId] using (List.mem_filter.mp hi).2) }

theorem find_withoutInteraction (x : Store) (id : UUID) :
    (x.withoutInteraction id).lessonInteractions.find id = none := by
  simp only [Store.withoutInteraction, Table.find_delete, Option.filter_eq_none_iff]
  intro i hi
  simp [Table.find_key hi]

theorem find_withInteraction (x : Store) (id lessonId : UUID) (kind : String) :
    (x.withInteraction id lessonId kind).lessonInteractions.find id =
      some ⟨id, lessonId, none, kind, 0, 0, "", "", .null, 1, "manual", none⟩ := by
  simp [Store.withInteraction, Table.find_append]

theorem sameOutside_withoutInteraction {id : UUID}
    (hOnly : ∀ i ∈ x.lessonInteractions.rows, i.id = id → x.inCourse course i.lessonId = true) :
    SameOutside course x (x.withoutInteraction id) := by
  refine ⟨rfl, rfl, rfl, rfl, rfl, rfl, rfl,
    fun _ => rfl, rfl, rfl, ?_, fun _ _ => rfl, fun _ _ => rfl⟩
  show (List.filter _ (List.filter _ _)) = _
  rw [List.filter_filter]
  refine List.filter_congr fun i hi => ?_
  by_cases hId : i.id = id
  · simp [hOnly i hi hId]
  · simp [hId]

theorem sameOutside_withInteraction {id : UUID} (kind : String)
    (hOnly : ∀ i ∈ x.lessonInteractions.rows, i.id = id → x.inCourse course i.lessonId = true)
    (hl : x.inCourse course l = true) : SameOutside course x (x.withInteraction id l kind) := by
  have hWithout := (sameOutside_withoutInteraction hOnly).lessonInteractions
  refine ⟨rfl, rfl, rfl, rfl, rfl, rfl, rfl,
    fun _ => rfl, rfl, rfl, ?_, fun _ _ => rfl, fun _ _ => rfl⟩
  show (List.filter _ (_ ++ [_])) = _
  rw [List.filter_append, hWithout]
  simp [hl]

theorem eval_fetch_error {α : Type} {z : Store} {q : Query} {e : DbError}
    (h : q.answer z = .error e) (f : q.Result → Handler α) :
    (fetch q >>= f).run.eval (answer z) (fun _ => {}) = .error (connectDBError e) := by
  have hAnswer : (query q).run.eval (answer z) (fun _ => {}) = .ok (.error e) :=
    congrArg Except.ok h
  refine Prog.eval_exceptT_error (x := fetch q) ?_ f
  refine (Prog.eval_exceptT_bind (query q) _ _).trans ?_
  rw [hAnswer]
  rfl

/-- An interaction that is not there is not found. -/
theorem reply_of_find_none {z : Store} (cfg : Cfg) (hActive : claims.status = .active)
    {c : Members.Course} (hCourse : z.courseOf l = some c)
    (hNone : z.lessonInteractions.find input.interactionId = none) :
    reply cfg (some claims) (.previewGrade l (some input)) (fun _ => {}) z =
      .error (.connect .notFound "not found") := by
  obtain ⟨lesson, hLesson⟩ := exists_lesson hCourse
  refine reply_previewGrade_error cfg hActive ?_
  unfold lookupSingleGradeTarget
  rw [eval_fetch_bind (answer_getOrgIDByLessonID hCourse)]
  refine (eval_fetch_bind (q := .getLessonByID l) (one_eq_ok.mpr hLesson) _ _).trans ?_
  exact eval_fetch_error (q := .getLessonInteractionByID input.interactionId)
    (one_eq_error.mpr ⟨hNone, rfl⟩) _

/-- An interaction of another kind is refused, whatever its lesson is. -/
theorem reply_of_otherKind {z : Store} (cfg : Cfg) (hActive : claims.status = .active)
    {c : Members.Course} (hCourse : z.courseOf l = some c) {i : LessonInteractionRow}
    (hFind : z.lessonInteractions.find input.interactionId = some i)
    (hKind : i.kind = otherKind input.response) : ∃ message,
    reply cfg (some claims) (.previewGrade l (some input)) (fun _ => {}) z =
      .error (.connect .invalidArgument message) := by
  obtain ⟨lesson, hLesson⟩ := exists_lesson hCourse
  by_cases hSame : i.lessonId = l
  · obtain ⟨toJSON, message, hHandler, hRefuses⟩ := otherKind_refuses input.response
    refine ⟨message, reply_previewGrade_error cfg hActive ?_⟩
    unfold lookupSingleGradeTarget
    rw [eval_fetch_bind (answer_getOrgIDByLessonID hCourse)]
    refine (eval_fetch_bind (q := .getLessonByID l) (one_eq_ok.mpr hLesson) _ _).trans ?_
    refine (eval_fetch_bind (q := .getLessonInteractionByID input.interactionId)
      (one_eq_ok.mpr hFind) _ _).trans ?_
    simp only [hSame, ne_eq, not_true_eq_false, if_false, hKind, hHandler, hRefuses]
    rfl
  · exact ⟨_, reply_previewGrade_error cfg hActive
      (eval_lookup_foreign hCourse hLesson hFind hSame _)⟩

end Preview

/-- Every store with the same content outside the course is answered from in the same way. -/
def Confined (cfg : Cfg) (claims : Claims) (x : Store) (course : UUID) (call : Call) : Prop :=
  ∀ y, SameOutside course x y → ∀ env,
    reply cfg (some claims) call env y = reply cfg (some claims) call env x

section Disclosed

variable {cfg : Cfg} {x : Store} {course l : UUID} {claims : Claims}

theorem listLessonTranscriptChunks_disclosed (hOut : Outsider x course claims)
    (hActive : claims.status = .active) (hl : x.inCourse course l = true) (limit offset : Nat) :
    ¬ Confined cfg claims x course (.listLessonTranscriptChunks l limit offset) := by
  intro hConfined
  obtain ⟨y, hy, hyLength⟩ := exists_chunks hl 0
  obtain ⟨z, hz, hzLength⟩ := exists_chunks hl (offset + 1)
  have hEq := (hConfined y hy fun _ => {}).trans (hConfined z hz fun _ => {}).symm
  rw [reply_listLessonTranscriptChunks cfg hy hOut hActive hl,
    reply_listLessonTranscriptChunks cfg hz hOut hActive hl] at hEq
  have hLength := congrArg List.length (Reply.chunks.inj (Except.ok.inj hEq))
  simp only [List.length_map, length_page, hyLength, hzLength] at hLength
  split at hLength <;> omega

theorem listLessonInteractions_disclosed (hOut : Outsider x course claims)
    (hActive : claims.status = .active) (hl : x.inCourse course l = true) (limit offset : Nat) :
    ¬ Confined cfg claims x course (.listLessonInteractions l limit offset) := by
  intro hConfined
  obtain ⟨y, hy, hyLength⟩ := exists_interactions hl 0
  obtain ⟨z, hz, hzLength⟩ := exists_interactions hl (offset + 1)
  have hEq := (hConfined y hy fun _ => {}).trans (hConfined z hz fun _ => {}).symm
  rw [reply_listLessonInteractions cfg hy hOut hActive hl,
    reply_listLessonInteractions cfg hz hOut hActive hl] at hEq
  have hLength := congrArg List.length (Reply.interactions.inj (Except.ok.inj hEq))
  simp only [List.length_map, length_page, hyLength, hzLength] at hLength
  split at hLength <;> omega

/-- The refusal tells whether the interaction is there. -/
theorem previewGrade_disclosed {respInput : Option AttemptResponseInput}
    (hActive : claims.status = .active) (hReveals : reveals x course (.previewGrade l respInput)) :
    ¬ Confined cfg claims x course (.previewGrade l respInput) := by
  intro hConfined
  cases respInput with
  | none => exact hReveals
  | some input =>
    obtain ⟨hSome, ⟨lesson, -, hLesson⟩, hOnly⟩ := hReveals
    obtain ⟨c, hCourse⟩ := Option.isSome_iff_exists.mp hSome
    let y := x.withoutInteraction input.interactionId
    let z := x.withInteraction input.interactionId lesson.id (otherKind input.response)
    have hEq := (hConfined y (sameOutside_withoutInteraction hOnly) fun _ => {}).trans
      (hConfined z (sameOutside_withInteraction _ hOnly hLesson) fun _ => {}).symm
    obtain ⟨message, hRefused⟩ := reply_of_otherKind (z := z) cfg hActive hCourse
      (find_withInteraction x _ _ _) rfl
    rw [reply_of_find_none (z := y) cfg hActive hCourse (find_withoutInteraction x _), hRefused]
      at hEq
    cases hEq

end Disclosed

/-- For a student of the organization who may not open the course, a request is answered the same
whatever the content of the course is, exactly when it does not reveal the content or the student's
account is not active. -/
theorem reply_confined_iff (cfg : Cfg) {x : Store} {course : UUID} {claims : Claims}
    (hOut : Outsider x course claims) (call : Call) :
    Confined cfg claims x course call ↔ ¬ (claims.status = .active ∧ reveals x course call) := by
  constructor
  · rintro hConfined ⟨hActive, hReveals⟩
    cases call with
    | listLessonTranscriptChunks l limit offset =>
      exact listLessonTranscriptChunks_disclosed hOut hActive hReveals limit offset hConfined
    | listLessonInteractions l limit offset =>
      exact listLessonInteractions_disclosed hOut hActive hReveals limit offset hConfined
    | previewGrade l respInput => exact previewGrade_disclosed hActive hReveals hConfined
    | _ => exact hReveals
  · intro hNot y hxy env
    exact reply_confined hxy cfg hOut (fun hActive hReveals => hNot ⟨hActive, hReveals⟩) env

/-- A course with a lesson, whose organization has a student who is no member of the course. -/
def lecture (chunks : Table LessonTranscriptChunk LessonTranscriptChunk.id) : Store where
  members :=
    { organizationMembers := .ofList [⟨1, 100, .student, .active⟩]
      courses := .ofList [⟨5, 1, 7⟩]
      courseMembers := .empty
      courseJoinRequests := .empty }
  courseDetails := fun _ => ⟨"Data structures", none, .published, 0, 0⟩
  lower := String.toLower
  courseModules := .ofList [⟨3, 5, 0⟩]
  lessons := .ofList [⟨2, 3, "Stacks", none, 0, none, none, "after_submit", "en", "en", 0, none, 0,
    0⟩]
  lessonTranscriptChunks := chunks
  lessonInteractions := .empty
  tasks := .empty
  lessonAnalyses := fun _ => none
  lessonAttempts := []
  transcripts := fun _ => none
  segments := fun _ => none

def student : Claims := ⟨100, .normal, .active⟩

def demoCfg : Cfg := ⟨⟨500, 5000⟩, true⟩

theorem student_outsider (chunks : Table LessonTranscriptChunk LessonTranscriptChunk.id) :
    Outsider (lecture chunks) 5 student where
  student := ⟨_, _, rfl, rfl, rfl, rfl⟩
  denied := nofun

theorem reply_confined_iff_lecture :
    Confined demoCfg student (lecture .empty) 5 (.getLessonById 2) ∧
      ¬ Confined demoCfg student (lecture .empty) 5 (.listLessonInteractions 2 10 0) :=
  ⟨(reply_confined_iff demoCfg (student_outsider .empty) _).mpr fun h => h.2,
    fun h => (reply_confined_iff demoCfg (student_outsider .empty) _).mp h ⟨rfl, rfl⟩⟩

/-- The summary of a chunk is told to a student of the organization who is no member of the
course. -/
theorem chunks_told_to_outsider : ∃ x y : Store, SameOutside 5 x y ∧ Outsider x 5 student ∧
    reply demoCfg (some student) (.listLessonTranscriptChunks 2 10 0) (fun _ => {}) x =
      .ok (.chunks []) ∧
    reply demoCfg (some student) (.listLessonTranscriptChunks 2 10 0) (fun _ => {}) y =
      .ok (.chunks [⟨9, 2, 0, 0, 60, "Push and pop", 1, none⟩]) := by
  refine ⟨lecture .empty, lecture (.ofList [⟨9, 2, 0, 0, 60, "Push and pop", 1, none⟩]), ?_,
    student_outsider _, by decide, by decide⟩
  exact ⟨rfl, rfl, rfl, rfl, rfl, rfl, rfl,
    fun _ => rfl, rfl, rfl, rfl, fun _ _ => rfl, fun _ _ => rfl⟩

end Richter.Courses
