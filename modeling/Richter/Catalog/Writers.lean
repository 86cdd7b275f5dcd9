import Richter.Catalog.Tenancy
import Richter.Storage.Urls

/-! Any number of requests that write organizations and their content, side by side. -/

namespace Richter.Catalog

open Lib
open Courses (teacherRoles)
open Members (Claims OrganizationRole requireAuthenticated requireOrgRole)
open Storage (Texts)

/-- What the environment decides about an operation: the memberships at its time, whether a
statement fails, the id that it makes up, and whether an object is in storage. -/
structure Choice where
  members : Members.Db
  failure : Option DbError := none
  fresh : UUID := 0
  found : Bool := true

/-- An id is made up only once. -/
def exec (w : Choice) : (o : Op) → Store → Option (o.Resp × Store)
  | .conn q, x =>
      match w.failure with
      | some e => some (.error e, x)
      | none => if x.isFresh w.fresh then some (q.apply w.fresh x) else none
  | .members o, x => some (Members.answer w.members w.failure o, x)
  | .elsewhere, x =>
      some (match w.failure with
        | some e => .error e
        | none => .ok (), x)
  | .statObject _, x => some (w.found, x)

/-- A request, with the claims that the interceptor has found for it. -/
structure WriteCall where
  ctx : Option Claims
  call : Call

abbrev Writers := Pool Nat Store Op Op.Resp (Except Error Unit)

def Writers.start (T : Texts) (call : Nat → WriteCall) (x : Store) : Writers :=
  Pool.start x fun i => (serve T (call i).ctx (call i).call).run

def writers : Machine Writers (Nat × Choice) := Pool.machine fun _ => exec

/-! ### What a request makes sure of -/

def Query.isRead : Query → Bool
  | .getCourseByID _ | .getCourseModuleByID _ | .getLessonByID _ | .getOrgIDByLessonID _ => true
  | _ => false

abbrev History := List (Prog.Event Op Op.Resp)

abbrev Passed (ctx : Option Claims) (claims : Claims) (orgID : UUID)
    (roles : List OrganizationRole) (h : History) : Prop :=
  Members.Passed Op.members (fun _ => id) ctx claims orgID roles h

/-- The request has been told which organization a row belongs to. -/
inductive Located (h : History) : Node → UUID → Prop
  | organization (id : UUID) : Located h (.organization id) id
  | course {id : UUID} {c : Course} :
      ⟨.conn (.getCourseByID id), .ok c⟩ ∈ h → Located h (.course c.id) c.organizationId
  | module {id : UUID} {m : CourseModule} {c : Course} :
      ⟨.conn (.getCourseModuleByID id), .ok m⟩ ∈ h →
      ⟨.conn (.getCourseByID m.courseId), .ok c⟩ ∈ h → Located h (.module m.id) c.organizationId
  | lesson {id : UUID} {l : Lesson} {m : CourseModule} {c : Course} :
      ⟨.conn (.getLessonByID id), .ok l⟩ ∈ h →
      ⟨.conn (.getCourseModuleByID l.moduleId), .ok m⟩ ∈ h →
      ⟨.conn (.getCourseByID m.courseId), .ok c⟩ ∈ h → Located h (.lesson l.id) c.organizationId
  | orgOfLesson {id orgID : UUID} :
      ⟨.conn (.getOrgIDByLessonID id), .ok orgID⟩ ∈ h → Located h (.lesson id) orgID

/-- What lets a caller write a row: it is known to belong to an organization where the caller has
passed the check of a role. -/
def Entitled (ctx : Option Claims) (h : History) (n : Node) (roles : List OrganizationRole) :
    Prop :=
  ∃ claims orgID, Located h n orgID ∧ Passed ctx claims orgID roles h

/-- The caller is a user, or a system admin. -/
def ActsFor (ctx : Option Claims) (userID : UUID) : Prop :=
  ∃ claims, ctx = some claims ∧ claims.status = .active ∧
    (claims.sub = userID ∨ claims.role = .admin)

/-- Before an operation: a write is of a row that the caller is entitled to write, and nobody
creates an organization for another user. -/
def Justified (ctx : Option Claims) (h : History) : Op → Prop
  | .conn q => (∀ n, q.target = some n → Entitled ctx h n q.roles) ∧
      ∀ createdBy name slug, q = .createOrganization createdBy name slug → ActsFor ctx createdBy
  | _ => True

abbrev Justifies {α : Type} (ctx : Option Claims) (x : Handler α) (ok : α → History → Prop)
    (h : History) : Prop :=
  Prog.Meets (fun o h r h' => h' = h ++ [⟨o, r⟩]) (Justified ctx) x ok (fun _ => True) h

section Parts

variable {T : Texts} {ctx : Option Claims} {h h' : History} {n : Node} {orgID : UUID}
  {claims : Claims} {roles : List OrganizationRole} {β : Type} {ok : β → History → Prop}

theorem Located.mono (hLocated : Located h n orgID) (hSub : h ⊆ h') : Located h' n orgID := by
  cases hLocated with
  | organization => exact .organization orgID
  | course hCourse => exact .course (hSub hCourse)
  | module hModule hCourse => exact .module (hSub hModule) (hSub hCourse)
  | lesson hLesson hModule hCourse => exact .lesson (hSub hLesson) (hSub hModule) (hSub hCourse)
  | orgOfLesson hOrg => exact .orgOfLesson (hSub hOrg)

theorem justifies_perform_bind (o : Op) {f : o.Resp → Handler β} :
    Justifies ctx (perform o >>= f) ok h ↔
      Justified ctx h o ∧ ∀ a, Justifies ctx (f a) ok (h ++ [⟨o, a⟩]) := by
  refine (Prog.meets_perform_bind o).trans (and_congr_right fun _ => ?_)
  simp

theorem justifies_query_bind (q : Query) {f : q.Result → Handler β} :
    Justifies ctx (query q >>= f) ok h ↔ Justified ctx h (.conn q) ∧
      ∀ a, Justifies ctx (f a) ok (h ++ [⟨.conn q, .ok a⟩]) := by
  refine (Prog.meets_bind _).trans ((justifies_perform_bind _).trans (and_congr_right fun _ => ?_))
  refine ⟨fun hAll a => hAll (.ok a), fun hAll a => ?_⟩
  cases a with
  | error e => trivial
  | ok a => exact hAll a

theorem justifies_requireOrgRole_bind {f : Claims → Handler β}
    (hf : ∀ claims h', h ⊆ h' → Passed ctx claims orgID roles h' →
      Justifies ctx (f claims) ok h') :
    Justifies ctx (check (requireOrgRole ctx orgID roles) >>= f) ok h := by
  refine Prog.Meets.bind (Members.requireOrgRole_passes fun _ => trivial) ?_
  rintro claims h' ⟨hPassed, rfl | ⟨q, r, rfl⟩⟩
  · exact hf claims _ (List.Subset.refl _) hPassed
  · exact hf claims _ (List.subset_append_left _ _) hPassed

theorem justified_write {q : Query} (hTarget : q.target = some n)
    (hLocated : Located h n orgID) (hPassed : Passed ctx claims orgID q.roles h) :
    Justified ctx h (.conn q) := by
  refine ⟨fun n' hn => ?_, ?_⟩
  · cases hTarget.symm.trans hn
    exact ⟨claims, orgID, hLocated, hPassed⟩
  · rintro createdBy name slug rfl
    cases hTarget

theorem justified_read {q : Query} (hRead : q.isRead = true) : Justified ctx h (.conn q) := by
  have hNone : q.target = none := by cases q <;> first | rfl | cases hRead
  refine ⟨fun n hTarget => ?_, ?_⟩
  · cases hNone.symm.trans hTarget
  · rintro createdBy name slug rfl
    cases hRead

theorem justifies_read_bind {q : Query} {f : q.Result → Handler β} (hRead : q.isRead = true)
    (hf : ∀ a, Justifies ctx (f a) ok (h ++ [⟨.conn q, .ok a⟩])) :
    Justifies ctx (query q >>= f) ok h :=
  (justifies_query_bind q).mpr ⟨justified_read hRead, hf⟩

theorem justifies_write {q : Query} {f : q.Result → Handler Unit} (hTarget : q.target = some n)
    (hLocated : Located h n orgID) (hPassed : Passed ctx claims orgID q.roles h)
    (hf : ∀ a h, Justifies ctx (f a) (fun _ _ => True) h) :
    Justifies ctx (query q >>= f) (fun _ _ => True) h :=
  (justifies_query_bind q).mpr ⟨justified_write hTarget hLocated hPassed, fun a => hf a _⟩

theorem justifies_orNotFound {message : String} (k : Nat) (h : History) :
    Justifies ctx (orNotFound message k) (fun _ _ => True) h := by
  unfold orNotFound
  split <;> trivial

theorem justifies_createOrganization (createdBy : UUID) (name slug : String) :
    Justifies ctx (createOrganization ctx createdBy name slug) (fun _ _ => True) h := by
  have hAuth : Justifies ctx (check (requireAuthenticated ctx))
      (fun claims h' => h' = h ∧ ctx = some claims ∧ claims.status = .active) h :=
    Prog.ensures_hoist.mpr ((Members.meets_requireAuthenticated _).mpr
      ⟨fun claims hClaims hActive => ⟨rfl, hClaims, hActive⟩, fun _ => trivial⟩)
  refine (Prog.meets_bind _).mpr (Prog.Meets.bind hAuth ?_)
  rintro claims _ ⟨rfl, hClaims, hActive⟩
  split
  · next hSelf =>
    refine (justifies_query_bind _).mpr ⟨⟨?_, ?_⟩, fun _ => trivial⟩
    · rintro n ⟨⟩
    · rintro _ _ _ ⟨⟩
      exact ⟨claims, hClaims, hActive, hSelf⟩
  · trivial

/-- A request for a course. -/
theorem justifies_course_bind {id : UUID} {f : Course → Claims → Handler β}
    (hf : ∀ c claims h', Located h' (.course c.id) c.organizationId →
      Passed ctx claims c.organizationId roles h' → Justifies ctx (f c claims) ok h') :
    Justifies ctx (query (.getCourseByID id) >>= fun c =>
      check (requireOrgRole ctx c.organizationId roles) >>= f c) ok h := by
  refine justifies_read_bind rfl fun c => justifies_requireOrgRole_bind
    fun claims h' hSub hPassed => hf c claims h' (Located.mono ?_ hSub) hPassed
  exact @Located.course _ id c (by simp)

/-- A request for a module. -/
theorem justifies_module_bind {id : UUID} {f : CourseModule → Course → Claims → Handler β}
    (hf : ∀ m c claims h', Located h' (.module m.id) c.organizationId →
      Passed ctx claims c.organizationId roles h' → Justifies ctx (f m c claims) ok h') :
    Justifies ctx (query (.getCourseModuleByID id) >>= fun m => query (.getCourseByID m.courseId)
      >>= fun c => check (requireOrgRole ctx c.organizationId roles) >>= f m c) ok h := by
  refine justifies_read_bind rfl fun m => justifies_read_bind rfl fun c =>
    justifies_requireOrgRole_bind fun claims h' hSub hPassed =>
      hf m c claims h' (Located.mono ?_ hSub) hPassed
  exact @Located.module _ id m c (by simp) (by simp)

/-- A request for a lesson. -/
theorem justifies_fetchTaughtLesson_bind {id : UUID} {f : Lesson → Handler β}
    (hf : ∀ l orgID claims h', Located h' (.lesson l.id) orgID →
      Passed ctx claims orgID teacherRoles h' → Justifies ctx (f l) ok h') :
    Justifies ctx (fetchTaughtLesson ctx id >>= f) ok h := by
  refine (Prog.meets_bind _).mpr (justifies_read_bind rfl fun l => justifies_read_bind rfl fun m =>
    justifies_read_bind rfl fun c => justifies_requireOrgRole_bind fun claims h' hSub hPassed =>
      hf l c.organizationId claims h' (Located.mono ?_ hSub) hPassed)
  exact @Located.lesson _ id l m c (by simp) (by simp) (by simp)

theorem justifies_requireTeacherRole_bind {lessonID : UUID} {f : Unit → Handler β}
    (hf : ∀ orgID claims h', Located h' (.lesson lessonID) orgID →
      Passed ctx claims orgID teacherRoles h' → Justifies ctx (f ()) ok h') :
    Justifies ctx (requireTeacherRole ctx lessonID >>= f) ok h := by
  refine (Prog.meets_bind _).mpr (justifies_read_bind rfl fun orgID =>
    justifies_requireOrgRole_bind fun claims h' hSub hPassed => hf orgID claims h' ?_ hPassed)
  exact .orgOfLesson (hSub (by simp))

/-- No request writes what its caller is not entitled to. -/
theorem serve_justified (c : Call) : Justifies ctx (serve T ctx c) (fun _ _ => True) [] := by
  cases c with
  | createOrganization createdBy name slug => exact justifies_createOrganization createdBy name slug
  | updateOrganization id name slug =>
    exact justifies_requireOrgRole_bind fun _ _ _ hPassed =>
      justifies_write rfl (.organization id) hPassed fun _ _ => trivial
  | updateOrganizationStatus id status =>
    refine justifies_requireOrgRole_bind fun _ _ _ hPassed => ?_
    cases status with
    | none => trivial
    | some status => exact justifies_write rfl (.organization id) hPassed fun _ _ => trivial
  | deleteOrganization id =>
    exact justifies_requireOrgRole_bind fun _ _ _ hPassed =>
      justifies_write rfl (.organization id) hPassed justifies_orNotFound
  | createCourse orgID title description =>
    exact justifies_requireOrgRole_bind fun _ _ _ hPassed =>
      justifies_write rfl (.organization orgID) hPassed fun _ _ => trivial
  | updateCourse id title description =>
    exact justifies_course_bind fun _ _ _ hCourse hPassed =>
      justifies_write rfl hCourse hPassed fun _ _ => trivial
  | updateCourseStatus id status =>
    refine justifies_course_bind fun _ _ _ hCourse hPassed => ?_
    cases status with
    | none => trivial
    | some status => exact justifies_write rfl hCourse hPassed fun _ _ => trivial
  | deleteCourse id =>
    exact justifies_course_bind fun _ _ _ hCourse hPassed =>
      justifies_write rfl hCourse hPassed justifies_orNotFound
  | createCourseModule courseID title orderIndex =>
    exact justifies_course_bind fun _ _ _ hCourse hPassed =>
      justifies_write rfl hCourse hPassed fun _ _ => trivial
  | updateCourseModule id title orderIndex =>
    exact justifies_module_bind fun _ _ _ _ hModule hPassed =>
      justifies_write rfl hModule hPassed fun _ _ => trivial
  | deleteCourseModule id =>
    exact justifies_module_bind fun _ _ _ _ hModule hPassed =>
      justifies_write rfl hModule hPassed justifies_orNotFound
  | createLesson moduleID title description orderIndex maxAttempts =>
    exact justifies_module_bind fun _ _ _ _ hModule hPassed =>
      justifies_write rfl hModule hPassed fun _ _ => trivial
  | updateLesson id req =>
    exact justifies_fetchTaughtLesson_bind fun _ _ _ _ hLesson hPassed =>
      justifies_write rfl hLesson hPassed fun _ _ => trivial
  | updateLessonFeedbackMode lessonID mode =>
    exact justifies_requireTeacherRole_bind fun _ _ _ hLesson hPassed =>
      justifies_write rfl hLesson hPassed fun _ _ => trivial
  | updateLessonDefaultInteractionConfig lessonID config =>
    exact justifies_requireTeacherRole_bind fun _ _ _ hLesson hPassed =>
      justifies_write rfl hLesson hPassed fun _ _ => trivial
  | updateLessonVideo id videoStorageKey durationSeconds =>
    refine justifies_fetchTaughtLesson_bind fun l _ _ _ hLesson hPassed => ?_
    split
    · trivial
    · refine (justifies_perform_bind _).mpr ⟨trivial, fun found => ?_⟩
      cases found with
      | false => trivial
      | true =>
        rw [if_pos rfl]
        dsimp only
        split
        · refine (justifies_perform_bind _).mpr ⟨trivial, fun _ => ?_⟩
          exact justifies_write rfl (hLesson.mono (by simp)) (hPassed.mono (by simp))
            fun _ _ => trivial
        · exact justifies_write rfl (hLesson.mono (by simp)) (hPassed.mono (by simp))
            fun _ _ => trivial
  | deleteLesson id =>
    refine justifies_fetchTaughtLesson_bind fun _ _ _ _ hLesson hPassed => ?_
    refine (justifies_perform_bind _).mpr ⟨trivial, fun _ => ?_⟩
    exact justifies_write rfl (hLesson.mono (List.subset_append_left _ _))
      (hPassed.mono (List.subset_append_left _ _)) justifies_orNotFound
  | resetLessonContent lessonID =>
    refine justifies_requireTeacherRole_bind fun _ _ _ hLesson hPassed => ?_
    refine justifies_read_bind rfl fun _ => (justifies_perform_bind _).mpr ⟨trivial, fun a => ?_⟩
    cases a with
    | error e => trivial
    | ok u =>
      refine (justifies_perform_bind _).mpr ⟨trivial, fun a => ?_⟩
      cases a with
      | error e => trivial
      | ok u =>
        exact justifies_write rfl (hLesson.mono (by simp)) (hPassed.mono (by simp))
          fun _ _ => trivial

end Parts

/-! ### What a request knows -/

/-- What has been read is true of the row at all times. -/
def Told (x : Store) : Prog.Event Op Op.Resp → Prop
  | ⟨.conn (.getCourseByID id), .ok c⟩ =>
      c.id = id ∧ x.orgOfCourse id = some c.organizationId
  | ⟨.conn (.getCourseModuleByID id), .ok m⟩ =>
      m.id = id ∧ x.courseOfModule id = some m.courseId
  | ⟨.conn (.getLessonByID id), .ok l⟩ => l.id = id ∧ x.moduleOfLesson id = some l.moduleId
  | ⟨.conn (.getOrgIDByLessonID id), .ok orgID⟩ => x.orgOf (.lesson id) = some orgID
  | _ => True

section Run

variable {T : Texts} {call : Nat → WriteCall} {x y : Store} {w : Choice} {i : Nat} {h : History}
  {as : List (Nat × Choice)} {p p' : Writers} {n : Node} {orgID : UUID}

theorem Told.mono {e : Prog.Event Op Op.Resp} (hTold : Told x e) (hLe : x.Le y) : Told y e := by
  unfold Told at hTold ⊢
  split
  · exact ⟨hTold.1, hLe.course _ _ hTold.2⟩
  · exact ⟨hTold.1, hLe.module _ _ hTold.2⟩
  · exact ⟨hTold.1, hLe.lesson _ _ hTold.2⟩
  · exact hLe.orgOf hTold
  · trivial

theorem Located.orgOf (hLocated : Located h n orgID) (hKnown : ∀ e ∈ h, Told x e) :
    x.orgOf n = some orgID := by
  cases hLocated with
  | organization => rfl
  | course hCourse =>
    obtain ⟨hId, hOrg⟩ := hKnown _ hCourse
    rw [hId]
    exact hOrg
  | module hModule hCourse =>
    obtain ⟨hId, hCourseOf⟩ := hKnown _ hModule
    obtain ⟨-, hOrg⟩ := hKnown _ hCourse
    rw [hId]
    exact Option.bind_eq_some_iff.mpr ⟨_, hCourseOf, hOrg⟩
  | lesson hLesson hModule hCourse =>
    obtain ⟨hId, hModuleOf⟩ := hKnown _ hLesson
    obtain ⟨-, hCourseOf⟩ := hKnown _ hModule
    obtain ⟨-, hOrg⟩ := hKnown _ hCourse
    rw [hId]
    exact Option.bind_eq_some_iff.mpr ⟨_, hModuleOf,
      Option.bind_eq_some_iff.mpr ⟨_, hCourseOf, hOrg⟩⟩
  | orgOfLesson hOrg => exact hKnown _ hOrg

/-- What an operation does: a statement is carried out, or the tables stay. -/
theorem exec_cases {o : Op} {r : o.Resp} (hExec : exec w o x = some (r, y)) :
    y = x ∨ ∃ q, o = .conn q ∧ x.isFresh w.fresh = true ∧ y = (q.apply w.fresh x).2 := by
  cases o with
  | conn q =>
    unfold exec at hExec
    dsimp only at hExec
    split at hExec
    · cases hExec
      exact .inl rfl
    · split at hExec
      · next hFresh =>
        refine .inr ⟨q, rfl, hFresh, ?_⟩
        rw [Option.some.inj hExec]
      · cases hExec
  | members o => exact .inl (congrArg Prod.snd (Option.some.inj hExec)).symm
  | elsewhere => exact .inl (congrArg Prod.snd (Option.some.inj hExec)).symm
  | statObject key => exact .inl (congrArg Prod.snd (Option.some.inj hExec)).symm

theorem exec_sound {o : Op} {r : o.Resp} (hx : x.Sound) (hExec : exec w o x = some (r, y)) :
    y.Sound ∧ x.Le y := by
  obtain rfl | ⟨q, -, hFresh, rfl⟩ := exec_cases hExec
  · exact ⟨hx, .of_eq rfl rfl rfl⟩
  · exact q.apply_sound hx hFresh

theorem apply_of_exec {q : Query} {a : q.Result} (hExec : exec w (.conn q) x = some (.ok a, y)) :
    (q.apply w.fresh x).1 = .ok a := by
  unfold exec at hExec
  dsimp only at hExec
  split at hExec
  · cases hExec
  · split at hExec
    · exact congrArg Prod.fst (Option.some.inj hExec)
    · cases hExec

/-- What a request is told is true. -/
theorem told_of_exec {o : Op} {r : o.Resp} (hx : x.Sound) (hExec : exec w o x = some (r, y)) :
    Told x ⟨o, r⟩ := by
  unfold Told
  split
  · next id c hEq =>
    cases hEq
    have hRow : x.courses.find id = some c := one_eq_ok.mp (apply_of_exec hExec)
    exact ⟨Table.find_key hRow, hx.course _ _ hRow⟩
  · next id m hEq =>
    cases hEq
    have hRow : x.courseModules.find id = some m := one_eq_ok.mp (apply_of_exec hExec)
    exact ⟨Table.find_key hRow, (hx.module _ _ hRow).1⟩
  · next id l hEq =>
    cases hEq
    have hRow : x.lessons.find id = some l := one_eq_ok.mp (apply_of_exec hExec)
    exact ⟨Table.find_key hRow, (hx.lesson _ _ hRow).1⟩
  · next id orgID hEq =>
    cases hEq
    have hRow : x.orgOfLesson id = some orgID := one_eq_ok.mp (apply_of_exec hExec)
    obtain ⟨l, hLesson, hRow⟩ := Option.bind_eq_some_iff.mp hRow
    obtain ⟨m, hModule, hRow⟩ := Option.bind_eq_some_iff.mp hRow
    obtain ⟨c, hCourse, hOrg⟩ := Option.map_eq_some_iff.mp hRow
    rw [← hOrg]
    exact Option.bind_eq_some_iff.mpr ⟨_, (hx.lesson _ _ hLesson).1,
      Option.bind_eq_some_iff.mpr ⟨_, (hx.module _ _ hModule).1, hx.course _ _ hCourse⟩⟩
  · trivial

/-- In every run the tables are sound, and what has been told to a request is true. -/
structure Invariant (x : Store) (hist : Nat → History) : Prop where
  sound : x.Sound
  told : ∀ i, ∀ e ∈ hist i, Told x e

theorem Invariant.step {hist : Nat → History} {o : Op} {r : o.Resp} (hInv : Invariant x hist)
    (hExec : exec w o x = some (r, y)) :
    Invariant y (Function.update hist i (hist i ++ [⟨o, r⟩])) := by
  obtain ⟨hSound, hLe⟩ := exec_sound hInv.sound hExec
  refine ⟨hSound, fun j e he => ?_⟩
  by_cases hj : j = i
  · subst hj
    rw [Function.update_self] at he
    rcases List.mem_append.mp he with he | he
    · exact (hInv.told j e he).mono hLe
    · rw [List.mem_singleton.mp he]
      exact (told_of_exec hInv.sound hExec).mono hLe
  · rw [Function.update_of_ne hj] at he
    exact (hInv.told j e he).mono hLe

theorem run_invariant (hx : x.Sound) (hRun : writers.run (.start T call x) as = some p) :
    Invariant p.store p.hist ∧
      ∀ i, (p.thread i).prog.Along (Justified (call i).ctx) (fun _ _ => True) (p.hist i) := by
  refine Pool.runs_invariant (P := fun i => Justified (call i).ctx) (Q := fun _ _ _ => True)
    (I := Invariant) ?_ (Machine.Runs.of_run hRun) ?_ ?_
  · intro p i w o r y _ _ _ hInv hExec
    exact hInv.step hExec
  · exact fun i => Prog.Ensures.mono (serve_justified (call i).call) (fun _ _ => id)
      fun _ _ _ => trivial
  · exact ⟨hx, fun i e he => absurd he List.not_mem_nil⟩

theorem hasOrgRole_of_passed {ctx : Option Claims} {claims : Claims}
    {roles : List OrganizationRole} (hRun : writers.run (.start T call x) as = some p)
    (hPassed : Passed ctx claims orgID roles (p.hist i)) :
    claims.role = .admin ∨
      ∃ a ∈ as, a.1 = i ∧ Members.hasOrgRole a.2.members claims orgID roles = true := by
  refine hPassed.member.imp_right fun ⟨m, r, hRead, hMember, hStatus, hRole⟩ => ?_
  obtain hOld | ⟨a, ha, hOwn, s, t, hExec⟩ := Pool.event_of_runs (Machine.Runs.of_run hRun) hRead
  · cases hOld
  · have hAnswer := congrArg Prod.fst (Option.some.inj hExec)
    exact ⟨a, ha, hOwn,
      Members.hasOrgRole_of_answer hPassed.active (hAnswer.trans hMember) hStatus hRole⟩

/-- In every run of requests side by side, a step that changes anything of an organization is a
statement that writes a row of it, for an active account with a role there that the statement is
for, as the request has read it, or creates the organization for the account's own user. -/
theorem content_changed_by_staff (hx : x.Sound)
    (hRun : writers.run (.start T call x) as = some p) (hStep : writers.step p (i, w) = some p')
    (hChanged : p'.store.content orgID ≠ p.store.content orgID) :
    ∃ claims q, (call i).ctx = some claims ∧ claims.status = .active ∧
      p.next i = some (.conn q) ∧
      ((q.target.bind p.store.orgOf = some orgID ∧ (claims.role = .admin ∨
          ∃ a ∈ as, a.1 = i ∧ Members.hasOrgRole a.2.members claims orgID q.roles = true)) ∨
        ∃ createdBy name slug, q = .createOrganization createdBy name slug ∧ w.fresh = orgID ∧
          (claims.sub = createdBy ∨ claims.role = .admin)) := by
  obtain ⟨hInv, hAlong⟩ := run_invariant hx hRun
  obtain ⟨o, r, hNext, hJust, hExec, -, -⟩ := Pool.step_along hStep hAlong
  obtain hSame | ⟨q, rfl, hFresh, hStore⟩ := exec_cases hExec
  · exact absurd (hSame ▸ rfl) hChanged
  · by_cases hTarget : q.target.bind p.store.orgOf = some orgID
    · obtain ⟨n, hn, hOrg⟩ := Option.bind_eq_some_iff.mp hTarget
      obtain ⟨claims, orgID', hLocated, hPassed⟩ := hJust.1 n hn
      -- the organization of the row that the caller has been checked for is this one
      obtain rfl : orgID' = orgID :=
        Option.some.inj ((hLocated.orgOf (hInv.told i)).symm.trans hOrg)
      exact ⟨claims, q, hPassed.claims_eq, hPassed.active, hNext,
        .inl ⟨hTarget, hasOrgRole_of_passed hRun hPassed⟩⟩
    · by_contra hNot
      refine hChanged ?_
      rw [hStore]
      refine (q.apply_leaves hInv.sound hFresh (fun n hn hOrg => hTarget ?_) ?_).content
      · rw [hn]
        exact hOrg
      · rintro createdBy name slug rfl hEq
        obtain ⟨claims, hClaims, hActive, hSelf⟩ := hJust.2 createdBy name slug rfl
        exact hNot ⟨claims, _, hClaims, hActive, hNext,
          .inr ⟨createdBy, name, slug, rfl, hEq.symm, hSelf⟩⟩

theorem Store.Sound.orgOf_of_mem (hx : x.Sound) (hn : n ∈ (x.content orgID).nodes) :
    x.orgOf n = some orgID := by
  rcases List.mem_append.mp hn with hn | hn
  · obtain ⟨c, hc, rfl⟩ := List.mem_map.mp hn
    obtain ⟨hRow, hIn⟩ := List.mem_filter.mp hc
    exact (hx.courseIn_iff hRow).mp hIn
  · rcases List.mem_append.mp hn with hn | hn
    · obtain ⟨m, hm, rfl⟩ := List.mem_map.mp hn
      obtain ⟨hRow, hIn⟩ := List.mem_filter.mp hm
      exact (hx.moduleIn_iff hRow).mp hIn
    · obtain ⟨l, hl, rfl⟩ := List.mem_map.mp hn
      obtain ⟨hRow, hIn⟩ := List.mem_filter.mp hl
      exact (hx.lessonIn_iff hRow).mp hIn

/-- From any state of a run to any later one no course, module or lesson moves to another
organization. -/
theorem content_never_moves {orgID' : UUID} (hx : x.Sound)
    (hRun : writers.run (.start T call x) as = some p) {as' : List (Nat × Choice)}
    (hLater : writers.run p as' = some p') (hBefore : n ∈ (p.store.content orgID).nodes)
    (hAfter : n ∈ (p'.store.content orgID').nodes) : orgID' = orgID := by
  obtain ⟨hInv, hAlong⟩ := run_invariant hx hRun
  have hStays : p'.store.Sound ∧ p'.store.orgOf n = some orgID := by
    refine (Pool.runs_invariant (P := fun i => Justified (call i).ctx) (Q := fun _ _ _ => True)
      (I := fun y _ => y.Sound ∧ y.orgOf n = some orgID) ?_ (Machine.Runs.of_run hLater) hAlong
        ⟨hInv.sound, hInv.sound.orgOf_of_mem hBefore⟩).1
    intro p i w o r y _ _ _ hOld hExec
    obtain ⟨hSound, hLe⟩ := exec_sound hOld.1 hExec
    exact ⟨hSound, hLe.orgOf hOld.2⟩
  exact Option.some.inj ((hStays.1.orgOf_of_mem hAfter).symm.trans hStays.2)

end Run

/-- A school with a teacher. -/
def school : Store where
  organizations := .ofList [⟨1, 100, "school", "school", .active⟩]
  courses := .empty
  courseModules := .empty
  lessons := .empty
  orgOfCourse _ := none
  courseOfModule _ := none
  moduleOfLesson _ := none

theorem school_sound : school.Sound where
  course _ _ h := by cases h
  module _ _ h := by cases h
  lesson _ _ h := by cases h

def teacherChoice (fresh : UUID) : Choice where
  members :=
    { organizationMembers := .ofList [⟨1, 100, .teacher, .active⟩]
      courses := .empty
      courseMembers := .empty
      courseJoinRequests := .empty }
  fresh := fresh

/-- The teacher creates a course. -/
def newCourse : WriteCall := ⟨some ⟨100, .normal, .active⟩, .createCourse 1 "Logic" ""⟩

theorem content_changed_by_staff_newCourse : ∃ p p' : Writers,
    writers.run (.start Storage.rowTexts (fun _ => newCourse) school) [(0, teacherChoice 7)] =
      some p ∧ writers.step p (0, teacherChoice 7) = some p' ∧
    p'.store.content 1 ≠ p.store.content 1 ∧
    ∃ claims, newCourse.ctx = some claims ∧ claims.status = .active := by
  have hAny : (writers.run (.start Storage.rowTexts (fun _ => newCourse) school)
      [(0, teacherChoice 7)]).any (fun p => (writers.step p (0, teacherChoice 7)).any fun p' =>
        (p.store.content 1).courses.length ≠ (p'.store.content 1).courses.length) = true := by
    decide +kernel
  obtain ⟨p, hRun, hAny⟩ := (Option.any_eq_true _ _).mp hAny
  obtain ⟨p', hStep, hLength⟩ := (Option.any_eq_true _ _).mp hAny
  have hChanged : p'.store.content 1 ≠ p.store.content 1 :=
    fun hEq => of_decide_eq_true hLength (by rw [hEq])
  obtain ⟨claims, _, hClaims, hActive, -⟩ :=
    content_changed_by_staff school_sound hRun hStep hChanged
  exact ⟨p, p', hRun, hStep, hChanged, claims, hClaims, hActive⟩

/-- The teacher creates a course and renames it, and adds a module to it that is deleted again. -/
def courseWork (i : Nat) : WriteCall :=
  ⟨newCourse.ctx, match i with
    | 0 => newCourse.call
    | 1 => .updateCourse 7 "Sets" ""
    | 2 => .createCourseModule 7 "Axioms" 0
    | _ => .deleteCourseModule 8⟩

/-- What comes after the creation: the reads of each request, and its statement. -/
def laterWork : List (Nat × Choice) :=
  List.replicate 3 (1, teacherChoice 9) ++ List.replicate 3 (2, teacherChoice 8) ++
    List.replicate 4 (3, teacherChoice 9)

theorem content_never_moves_newCourse : ∃ p p' : Writers,
    writers.run (.start Storage.rowTexts courseWork school)
      (List.replicate 2 (0, teacherChoice 7)) = some p ∧
    writers.run p laterWork = some p' ∧
    (p.store.courses.find 7).map Course.title = some "Logic" ∧
    (p'.store.courses.find 7).map Course.title = some "Sets" ∧
    p'.store.courseModules.rows = [] ∧ .course 7 ∈ (p'.store.content 1).nodes ∧
    ∀ orgID, .course 7 ∈ (p'.store.content orgID).nodes → orgID = 1 := by
  have hAny : (writers.run (.start Storage.rowTexts courseWork school)
      (List.replicate 2 (0, teacherChoice 7))).any (fun p =>
        (writers.run p laterWork).any fun p' =>
          (decide ((p.store.courses.find 7).map Course.title = some "Logic") &&
            decide (.course 7 ∈ (p.store.content 1).nodes)) &&
          (decide ((p'.store.courses.find 7).map Course.title = some "Sets") &&
            (p'.store.courseModules.rows.isEmpty &&
              decide (.course 7 ∈ (p'.store.content 1).nodes)))) = true := by
    decide +kernel
  obtain ⟨p, hRun, hAny⟩ := (Option.any_eq_true _ _).mp hAny
  obtain ⟨p', hLater, hBoth⟩ := (Option.any_eq_true _ _).mp hAny
  simp only [Bool.and_eq_true, decide_eq_true_eq, List.isEmpty_iff] at hBoth
  obtain ⟨⟨hLogic, hBefore⟩, hSets, hNone, hAfter⟩ := hBoth
  exact ⟨p, p', hRun, hLater, hLogic, hSets, hNone, hAfter, fun orgID hIn =>
    content_never_moves school_sound hRun hLater hBefore hIn⟩

end Richter.Catalog
