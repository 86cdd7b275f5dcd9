import Richter.Members.Authz

/-! The handlers of `internal/svc/coursemembers` that change memberships of a course and the
requests to join one. -/

namespace Richter.Members

/-- The course of a request. -/
def requireCourse (courseID : UUID) : Handler Course := do
  match ← withConnection (.getCourseByID courseID) with
  | .ok course => return course
  | .error .noRows => throw (.connect .notFound "course not found")
  | .error _ => throw (.connect .internal "internal error")

/-- A course member must also be an active member of the course's organization. -/
def requireActiveOrgMember (orgID userID : UUID) (missing inactive : String) : Handler Unit := do
  match ← withConnection (.getOrganizationMember orgID userID) with
  | .error .noRows => throw (.connect .failedPrecondition missing)
  | .error _ => throw (.connect .internal "internal error")
  | .ok orgMember =>
    if orgMember.status ≠ .active then throw (.connect .failedPrecondition inactive)

theorem requireCourse_onlyReads (courseID : UUID) : (requireCourse courseID).OnlyReads := by
  refine .exceptT_bind (withConnection_onlyReads rfl) fun r => ?_
  split <;> trivial

theorem requireActiveOrgMember_onlyReads (orgID userID : UUID) (missing inactive : String) :
    (requireActiveOrgMember orgID userID missing inactive).OnlyReads := by
  refine .exceptT_bind (withConnection_onlyReads rfl) fun r => ?_
  split
  · trivial
  · trivial
  · split <;> trivial

/-- `AddCourseMember`. -/
def addCourseMember (ctx : Option Claims) (courseID userID : UUID) (role : CourseRole) :
    Handler CourseMember := do
  requireCourseManager ctx courseID
  let course ← requireCourse courseID
  requireActiveOrgMember course.organizationId userID
    "user is not a member of the course's organization"
    "user's organization membership is not active"
  orConnectDBError (orReturn (← withConnection (.addCourseMember ⟨courseID, userID, role⟩)))

/-- `RemoveCourseMember`. -/
def removeCourseMember (ctx : Option Claims) (courseID userID : UUID) : Handler Unit := do
  requireCourseManager ctx courseID
  let rowsAffected ← orConnectDBError
    (orReturn (← withConnection (.removeCourseMember courseID userID)))
  if rowsAffected = 0 then
    throw (.connect .notFound
      ("member not found: course=" ++ toString courseID ++ " user=" ++ toString userID))

/-- `CreateJoinRequest`; `none` is the unspecified role. -/
def createJoinRequest (ctx : Option Claims) (courseID : UUID) (role : Option CourseRole) :
    Handler CourseJoinRequest := do
  let course ← requireCourse courseID
  let claims ← requireOrgMember ctx course.organizationId
  match ← withConnection (.isCourseMember courseID claims.sub) with
  | .error _ => throw (.connect .internal "internal error")
  | .ok isMember =>
    if isMember then throw (.connect .alreadyExists "already a member of this course")
    else
      orConnectDBError (orReturn
        (← withConnection (.createJoinRequest courseID claims.sub (role.getD .student))))

/-- `ReviewJoinRequest`. -/
def reviewJoinRequest (ctx : Option Claims) (courseID userID : UUID) (approve : Bool) :
    Handler Unit := do
  requireCourseManager ctx courseID
  if approve then
    let course ← requireCourse courseID
    requireActiveOrgMember course.organizationId userID
      "requester is no longer a member of the organization"
      "requester's organization membership is not active"
  orConnectDBError <| withCommitTx do
    let reviewed ← orReturn (← inTx (.reviewJoinRequest courseID userID
      (if approve then .approved else .rejected)))
    if approve then
      let _ ← orReturn (← inTx (.addCourseMember ⟨courseID, userID, reviewed.requestedRole⟩))

end Richter.Members
