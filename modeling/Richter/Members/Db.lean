import Richter.Lib.Prog
import Richter.Lib.Table
import Richter.Lib.Txn
import Richter.Svc.Errors

/-! The tables of organization and course membership, the statements on them
(`sql/queries/organization_members.sql`, `course_members.sql`, `course_join_requests.sql`), and
what the operations of the membership services do to the database. -/

namespace Richter.Members

open Lib

inductive OrganizationRole
  | owner
  | admin
  | teacher
  | student
  deriving DecidableEq, Repr

inductive MemberStatus
  | active
  | invited
  | suspended
  deriving DecidableEq, Repr

inductive CourseRole
  | teacher
  | student
  deriving DecidableEq, Repr

inductive JoinRequestStatus
  | pending
  | approved
  | rejected
  deriving DecidableEq, Repr

/-- A row of `organization_members`. -/
structure OrganizationMember where
  organizationId : UUID
  userId : UUID
  role : OrganizationRole
  status : MemberStatus
  deriving DecidableEq, Repr

def OrganizationMember.key (m : OrganizationMember) : UUID × UUID := (m.organizationId, m.userId)

/-- What `CountOrganizationOwners` counts. -/
def OrganizationMember.activeOwner (m : OrganizationMember) : Bool :=
  m.role = .owner && m.status = .active

/-- A row of `courses`. -/
structure Course where
  id : UUID
  organizationId : UUID
  ownerId : UUID
  deriving DecidableEq, Repr

/-- A row of `course_members`. -/
structure CourseMember where
  courseId : UUID
  userId : UUID
  role : CourseRole
  deriving DecidableEq, Repr

def CourseMember.key (m : CourseMember) : UUID × UUID := (m.courseId, m.userId)

/-- A row of `course_join_requests`. -/
structure CourseJoinRequest where
  courseId : UUID
  userId : UUID
  status : JoinRequestStatus
  requestedRole : CourseRole
  deriving DecidableEq, Repr

def CourseJoinRequest.key (r : CourseJoinRequest) : UUID × UUID := (r.courseId, r.userId)

structure Db where
  organizationMembers : Table OrganizationMember OrganizationMember.key
  courses : Table Course Course.id
  courseMembers : Table CourseMember CourseMember.key
  courseJoinRequests : Table CourseJoinRequest CourseJoinRequest.key

inductive Query
  | getOrganizationMember (organizationId userId : UUID)
  | countOrganizationOwners (organizationId : UUID)
  | addOrganizationMember (m : OrganizationMember)
  | updateOrganizationMemberRole (organizationId userId : UUID) (role : OrganizationRole)
  | updateOrganizationMemberStatus (organizationId userId : UUID) (status : MemberStatus)
  | removeOrganizationMember (organizationId userId : UUID)
  | getCourseByID (id : UUID)
  | getCourseAccessInfoByCourseID (id : UUID)
  | getCourseMember (courseId userId : UUID)
  | isCourseMember (courseId userId : UUID)
  | addCourseMember (m : CourseMember)
  | removeCourseMember (courseId userId : UUID)
  | removeCourseMembershipsForUserInOrg (organizationId userId : UUID)
  | createJoinRequest (courseId userId : UUID) (requestedRole : CourseRole)
  | reviewJoinRequest (courseId userId : UUID) (status : JoinRequestStatus)
  deriving DecidableEq, Repr

abbrev Query.Result : Query → Type
  | .getOrganizationMember .. | .addOrganizationMember .. | .updateOrganizationMemberRole ..
  | .updateOrganizationMemberStatus .. => OrganizationMember
  | .getCourseByID .. | .getCourseAccessInfoByCourseID .. => Course
  | .getCourseMember .. | .addCourseMember .. => CourseMember
  | .createJoinRequest .. | .reviewJoinRequest .. => CourseJoinRequest
  | .isCourseMember .. => Bool
  | .countOrganizationOwners .. | .removeOrganizationMember .. | .removeCourseMember ..
  | .removeCourseMembershipsForUserInOrg .. => Nat

def countOrganizationOwners (organizationId : UUID) (db : Db) : Nat :=
  db.organizationMembers.rows.countP fun m => m.organizationId = organizationId && m.activeOwner

/-- The course is one of the organization's (`USING courses`). -/
def Db.courseIn (db : Db) (organizationId courseId : UUID) : Bool :=
  (db.courses.find courseId).any fun c => c.organizationId = organizationId

namespace OrganizationMember

def setRole (role : OrganizationRole) (m : OrganizationMember) : OrganizationMember :=
  { m with role := role }

def setStatus (status : MemberStatus) (m : OrganizationMember) : OrganizationMember :=
  { m with status := status }

@[simp] theorem setRole_key (role : OrganizationRole) (m : OrganizationMember) :
    (m.setRole role).key = m.key := rfl

@[simp] theorem setStatus_key (status : MemberStatus) (m : OrganizationMember) :
    (m.setStatus status).key = m.key := rfl

end OrganizationMember

def CourseMember.setRole (role : CourseRole) (m : CourseMember) : CourseMember :=
  { m with role := role }

@[simp] theorem CourseMember.setRole_key (role : CourseRole) (m : CourseMember) :
    (m.setRole role).key = m.key := rfl

namespace CourseJoinRequest

def setPending (requestedRole : CourseRole) (r : CourseJoinRequest) : CourseJoinRequest :=
  { r with status := .pending, requestedRole := requestedRole }

def setReviewed (status : JoinRequestStatus) (r : CourseJoinRequest) : CourseJoinRequest :=
  { r with status := status }

@[simp] theorem setPending_key (requestedRole : CourseRole) (r : CourseJoinRequest) :
    (r.setPending requestedRole).key = r.key := rfl

@[simp] theorem setReviewed_key (status : JoinRequestStatus) (r : CourseJoinRequest) :
    (r.setReviewed status).key = r.key := rfl

end CourseJoinRequest

/-- What a statement writes. -/
def Query.apply (q : Query) (db : Db) : Db :=
  match q with
  | .getOrganizationMember .. | .countOrganizationOwners .. | .getCourseByID ..
  | .getCourseAccessInfoByCourseID .. | .getCourseMember .. | .isCourseMember .. => db
  | .addOrganizationMember m =>
      { db with
        organizationMembers := (db.organizationMembers.insert m).getD db.organizationMembers }
  | .updateOrganizationMemberRole organizationId userId role =>
      { db with
        organizationMembers := db.organizationMembers.update
          (fun m => m.key = (organizationId, userId)) (.setRole role)
          (OrganizationMember.setRole_key role) }
  | .updateOrganizationMemberStatus organizationId userId status =>
      { db with
        organizationMembers := db.organizationMembers.update
          (fun m => m.key = (organizationId, userId)) (.setStatus status)
          (OrganizationMember.setStatus_key status) }
  | .removeOrganizationMember organizationId userId =>
      { db with
        organizationMembers := db.organizationMembers.delete
          fun m => m.key = (organizationId, userId) }
  | .addCourseMember m =>
      { db with
        courseMembers := db.courseMembers.upsert m (.setRole m.role)
          (CourseMember.setRole_key m.role) }
  | .removeCourseMember courseId userId =>
      { db with courseMembers := db.courseMembers.delete fun m => m.key = (courseId, userId) }
  | .removeCourseMembershipsForUserInOrg organizationId userId =>
      { db with
        courseMembers := db.courseMembers.delete
          fun m => db.courseIn organizationId m.courseId && m.userId = userId }
  | .createJoinRequest courseId userId requestedRole =>
      { db with
        courseJoinRequests := db.courseJoinRequests.upsert
          ⟨courseId, userId, .pending, requestedRole⟩ (.setPending requestedRole)
          (CourseJoinRequest.setPending_key requestedRole) }
  | .reviewJoinRequest courseId userId status =>
      { db with
        courseJoinRequests := db.courseJoinRequests.update (fun r => r.key = (courseId, userId))
          (.setReviewed status) (CourseJoinRequest.setReviewed_key status) }

/-- What a statement answers. -/
def Query.answer (db : Db) : (q : Query) → Except DbError q.Result
  | .getOrganizationMember organizationId userId =>
      one (db.organizationMembers.find (organizationId, userId))
  | .countOrganizationOwners organizationId =>
      .ok (Members.countOrganizationOwners organizationId db)
  | .addOrganizationMember m =>
      match db.organizationMembers.find m.key with
      | none => .ok m
      | some _ => .error (.pg "23505")
  | .updateOrganizationMemberRole organizationId userId role =>
      one ((db.organizationMembers.find (organizationId, userId)).map (.setRole role))
  | .updateOrganizationMemberStatus organizationId userId status =>
      one ((db.organizationMembers.find (organizationId, userId)).map (.setStatus status))
  | .removeOrganizationMember organizationId userId =>
      .ok (db.organizationMembers.rows.countP fun m => m.key = (organizationId, userId))
  | .getCourseByID id => one (db.courses.find id)
  | .getCourseAccessInfoByCourseID id => one (db.courses.find id)
  | .getCourseMember courseId userId => one (db.courseMembers.find (courseId, userId))
  | .isCourseMember courseId userId => .ok (db.courseMembers.find (courseId, userId)).isSome
  | .addCourseMember m =>
      .ok (((db.courseMembers.find m.key).map (.setRole m.role)).getD m)
  | .removeCourseMember courseId userId =>
      .ok (db.courseMembers.rows.countP fun m => m.key = (courseId, userId))
  | .removeCourseMembershipsForUserInOrg organizationId userId =>
      .ok (db.courseMembers.rows.countP
        fun m => db.courseIn organizationId m.courseId && m.userId = userId)
  | .createJoinRequest courseId userId requestedRole =>
      .ok (((db.courseJoinRequests.find (courseId, userId)).map (.setPending requestedRole)).getD
        ⟨courseId, userId, .pending, requestedRole⟩)
  | .reviewJoinRequest courseId userId status =>
      one ((db.courseJoinRequests.find (courseId, userId)).map (.setReviewed status))

/-- The rows that can be locked. -/
inductive RowKey
  | organizationMember (key : UUID × UUID)
  | courseMember (key : UUID × UUID)
  | courseJoinRequest (key : UUID × UUID)
  deriving DecidableEq, Repr

/-- The rows that a statement writes. -/
def Query.rows (db : Db) : Query → List RowKey
  | .getOrganizationMember .. | .countOrganizationOwners .. | .getCourseByID ..
  | .getCourseAccessInfoByCourseID .. | .getCourseMember .. | .isCourseMember .. => []
  | .addOrganizationMember m => [.organizationMember m.key]
  | .updateOrganizationMemberRole organizationId userId _
  | .updateOrganizationMemberStatus organizationId userId _
  | .removeOrganizationMember organizationId userId =>
      [.organizationMember (organizationId, userId)]
  | .addCourseMember m => [.courseMember m.key]
  | .removeCourseMember courseId userId => [.courseMember (courseId, userId)]
  | .removeCourseMembershipsForUserInOrg organizationId userId =>
      (db.courseMembers.rows.filter
        fun m => db.courseIn organizationId m.courseId && m.userId = userId).map
        fun m => .courseMember m.key
  | .createJoinRequest courseId userId _ | .reviewJoinRequest courseId userId _ =>
      [.courseJoinRequest (courseId, userId)]

/-- The statement writes nothing. -/
def Query.isRead : Query → Bool
  | .getOrganizationMember .. | .countOrganizationOwners .. | .getCourseByID ..
  | .getCourseAccessInfoByCourseID .. | .getCourseMember .. | .isCourseMember .. => true
  | _ => false

theorem Query.apply_of_isRead {q : Query} (h : q.isRead = true) (db : Db) : q.apply db = db := by
  cases q <;> first | rfl | cases h

/-- What a request handler does to the database: a statement on a connection of its own
(`WithConnection`), or the steps of a transaction (`WithCommitTx`). -/
inductive Op
  | conn (q : Query)
  | begin
  | tx (q : Query)
  | commit
  | rollback
  deriving DecidableEq, Repr

abbrev Op.Resp : Op → Type
  | .conn q | .tx q => Except DbError q.Result
  | .begin | .commit => Except DbError Unit
  | .rollback => Unit

abbrev Store (ι : Type) := TxnStore ι RowKey Query Db

/-- The operation `o` of request `i`.  The environment may let it fail with an error; a write
waits (`none`) while another transaction has locked its rows. -/
def exec {ι : Type} [DecidableEq ι] (i : ι) (failure : Option DbError) (o : Op) (s : Store ι) :
    Option (o.Resp × Store ι) :=
  match o, failure with
  | .conn _, some e | .tx _, some e | .begin, some e => some (.error e, s)
  | .commit, some e => some (.error e, s.rollback i)
  | .rollback, _ => some ((), s.rollback i)
  | .begin, none => some (.ok (), s.begin i)
  | .commit, none => some (.ok (), s.commit Query.apply i)
  | .conn q, none =>
      match q.answer s.committed with
      | .error e => some (.error e, s)
      | .ok a =>
          if s.free i (q.rows s.committed) then
            some (.ok a, s.autocommit Query.apply q)
          else none
  | .tx q, none =>
      let db := s.view Query.apply i
      match q.answer db with
      | .error e => some (.error e, s)
      | .ok a =>
          if q.isRead then some (.ok a, s)
          else if s.free i (q.rows db) then some (.ok a, s.write i (q.rows db) q)
          else none

section Exec

variable {ι : Type} [DecidableEq ι] {i : ι} {failure : Option DbError} {q : Query}
  {s t : Store ι} {r : Except DbError q.Result}

theorem exec_conn (h : exec i failure (.conn q) s = some (r, t)) :
    (t = s ∧ ∃ e, r = .error e) ∨
      ∃ a, r = .ok a ∧ q.answer s.committed = .ok a ∧ t = s.autocommit Query.apply q := by
  cases failure with
  | some e => cases h; exact .inl ⟨rfl, e, rfl⟩
  | none =>
    simp only [exec] at h
    split at h
    · cases h; exact .inl ⟨rfl, _, rfl⟩
    · next a ha =>
      split at h
      · cases h; exact .inr ⟨a, rfl, ha, rfl⟩
      · cases h

theorem exec_conn_read (hq : q.isRead = true) (h : exec i failure (.conn q) s = some (r, t)) :
    t = s ∧ ∀ a, r = .ok a → q.answer s.committed = .ok a := by
  obtain ⟨rfl, e, rfl⟩ | ⟨a, rfl, ha, rfl⟩ := exec_conn h
  · exact ⟨rfl, nofun⟩
  · refine ⟨?_, fun b hb => by cases hb; exact ha⟩
    rw [TxnStore.autocommit, Query.apply_of_isRead hq]

theorem exec_tx (h : exec i failure (.tx q) s = some (r, t)) :
    (t = s ∧ ∃ e, r = .error e) ∨
      ∃ a, r = .ok a ∧ q.answer (s.view Query.apply i) = .ok a ∧
        t = if q.isRead then s else s.write i (q.rows (s.view Query.apply i)) q := by
  cases failure with
  | some e => cases h; exact .inl ⟨rfl, e, rfl⟩
  | none =>
    simp only [exec] at h
    split at h
    · cases h; exact .inl ⟨rfl, _, rfl⟩
    · next a ha =>
      refine .inr ⟨a, ?_⟩
      split at h
      · next hq => cases h; exact ⟨rfl, ha, by rw [if_pos hq]⟩
      · next hq =>
        split at h
        · cases h; exact ⟨rfl, ha, by rw [if_neg hq]⟩
        · cases h

theorem exec_tx_read (hq : q.isRead = true) (h : exec i failure (.tx q) s = some (r, t)) :
    t = s ∧ ∀ a, r = .ok a → q.answer (s.view Query.apply i) = .ok a := by
  obtain ⟨rfl, e, rfl⟩ | ⟨a, rfl, ha, rfl⟩ := exec_tx h
  · exact ⟨rfl, nofun⟩
  · exact ⟨by rw [if_pos hq], fun b hb => by cases hb; exact ha⟩

theorem exec_begin {r : Except DbError Unit} (h : exec i failure .begin s = some (r, t)) :
    (t = s ∧ ∃ e, r = .error e) ∨ (r = .ok () ∧ t = s.begin i) := by
  cases failure with
  | some e => cases h; exact .inl ⟨rfl, e, rfl⟩
  | none => cases h; exact .inr ⟨rfl, rfl⟩

theorem exec_commit {r : Except DbError Unit} (h : exec i failure .commit s = some (r, t)) :
    (t = s.rollback i ∧ ∃ e, r = .error e) ∨ (r = .ok () ∧ t = s.commit Query.apply i) := by
  cases failure with
  | some e => cases h; exact .inl ⟨rfl, e, rfl⟩
  | none => cases h; exact .inr ⟨rfl, rfl⟩

theorem exec_rollback (h : exec i failure .rollback s = some ((), t)) : t = s.rollback i := by
  cases failure <;> cases h <;> rfl

end Exec

end Richter.Members
