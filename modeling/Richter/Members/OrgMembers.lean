import Richter.Members.Authz

/-! The handlers of `internal/svc/orgmembers` that change memberships of an organization. -/

namespace Richter.Members

/-- `AddOrganizationMember`. -/
def addOrganizationMember (ctx : Option Claims) (orgID userID : UUID) (role : OrganizationRole)
    (status : MemberStatus) : Handler OrganizationMember := do
  let _ ← requireOrgRole ctx orgID [.admin, .owner]
  -- Only owner (or SYS_ADMIN) may add a new owner.
  if role = .owner then
    let _ ← requireOrgRole ctx orgID [.owner]
  let added ← withConnection (.addOrganizationMember ⟨orgID, userID, role, status⟩)
  orConnectDBError (orReturn added)

/-- The row that a guard of a transaction reads first. -/
def currentMember (orgID userID : UUID) (missing : String) : Handler OrganizationMember := do
  match ← inTx (.getOrganizationMember orgID userID) with
  | .ok current => return current
  | .error .noRows => throw (.connect .notFound missing)
  | .error e => throw (.connect .internal ("get member: " ++ e.text))

/-- The last-owner guard. -/
def requireAnotherOwner (orgID : UUID) (refusal : String) : Handler Unit := do
  match ← inTx (.countOrganizationOwners orgID) with
  | .error e => throw (.connect .internal ("count owners: " ++ e.text))
  | .ok ownerCount =>
    if ownerCount ≤ 1 then throw (.connect .failedPrecondition refusal)

/-- `UpdateOrganizationMemberRole`. -/
def updateOrganizationMemberRole (ctx : Option Claims) (orgID userID : UUID)
    (role : OrganizationRole) : Handler OrganizationMember :=
  orConnectDBError <| withCommitTx do
    let current ← currentMember orgID userID "member not found"
    let _ ← requireOrgRole ctx orgID
      (if current.role = .owner ∨ role = .owner then [.owner] else [.admin, .owner])
    if current.role = .owner ∧ role ≠ .owner ∧ current.status = .active then
      requireAnotherOwner orgID "cannot demote the last owner of an organization"
    orReturn (← inTx (.updateOrganizationMemberRole orgID userID role))

/-- `UpdateOrganizationMemberStatus`. -/
def updateOrganizationMemberStatus (ctx : Option Claims) (orgID userID : UUID)
    (status : MemberStatus) : Handler OrganizationMember :=
  orConnectDBError <| withCommitTx do
    let current ← currentMember orgID userID "member not found"
    if current.role = .owner then
      let _ ← requireOrgRole ctx orgID [.owner]
      if status ≠ .active ∧ current.status = .active then
        requireAnotherOwner orgID "cannot deactivate the last owner of an organization"
    else
      let _ ← requireOrgRole ctx orgID [.admin, .owner]
    orReturn (← inTx (.updateOrganizationMemberStatus orgID userID status))

/-- The checks of `RemoveOrganizationMember` on the caller. -/
def requireMayRemove (ctx : Option Claims) (orgID userID : UUID) : Handler Unit := do
  let callerClaims ← requireAuthenticated ctx
  if callerClaims.role = .admin then return
  match ← withConnection (.getOrganizationMember orgID callerClaims.sub) with
  | .error .noRows => throw (.connect .permissionDenied "not a member of this organization")
  | .error e => throw (.connect .internal e.text)
  | .ok callerMember =>
    if callerMember.status ≠ .active then
      throw (.connect .permissionDenied "membership is not active")
    else
      match callerMember.role with
      | .student | .teacher =>
        if callerClaims.sub ≠ userID then throw (.connect .permissionDenied "permission denied")
      | .admin =>
        match ← withConnection (.getOrganizationMember orgID userID) with
        | .error .noRows => throw (.connect .notFound "member not found")
        | .error e => throw (.connect .internal ("get member: " ++ e.text))
        | .ok targetMember =>
          if targetMember.role = .owner then
            throw (.connect .permissionDenied "org admin cannot remove owner")
      | .owner => return

/-- `member not found: org=.. user=..`. -/
def memberNotFound (orgID userID : UUID) : String :=
  "member not found: org=" ++ toString orgID ++ " user=" ++ toString userID

/-- `RemoveOrganizationMember`. -/
def removeOrganizationMember (ctx : Option Claims) (orgID userID : UUID) : Handler Unit := do
  requireMayRemove ctx orgID userID
  let rowsAffected ← orConnectDBError <| withCommitTx do
    let target ← currentMember orgID userID (memberNotFound orgID userID)
    if target.role = .owner ∧ target.status = .active then
      requireAnotherOwner orgID "cannot remove the last owner of an organization"
    match ← inTx (.removeCourseMembershipsForUserInOrg orgID userID) with
    | .error e => throw (.connect .internal ("cascade course memberships: " ++ e.text))
    | .ok _ => orReturn (← inTx (.removeOrganizationMember orgID userID))
  if rowsAffected = 0 then throw (.connect .notFound (memberNotFound orgID userID))

/-- The writes `RemoveOrganizationMember` ends with, once its checks have passed. -/
def removeWithCourseMemberships (orgID userID : UUID) : Handler Nat := do
  match ← inTx (.removeCourseMembershipsForUserInOrg orgID userID) with
  | .error e => throw (.connect .internal ("cascade course memberships: " ++ e.text))
  | .ok _ => orReturn (← inTx (.removeOrganizationMember orgID userID))

/-- `RespondToOrganizationInvitation`: the caller's membership, when the invitation is accepted. -/
def respondToOrganizationInvitation (ctx : Option Claims) (orgID : UUID) (accept : Bool) :
    Handler (Option OrganizationMember) := do
  let claims ← requireAuthenticated ctx
  orConnectDBError <| withCommitTx do
    let current ← currentMember orgID claims.sub "no invitation for this organization"
    if current.status ≠ .invited then
      throw (.connect .failedPrecondition "no pending invitation to respond to")
    else if accept then
      return some (← orReturn
        (← inTx (.updateOrganizationMemberStatus orgID claims.sub .active)))
    else
      match ← inTx (.removeOrganizationMember orgID claims.sub) with
      | .error e => throw (.connect .internal ("decline invitation: " ++ e.text))
      | .ok _ => return none

theorem currentMember_onlyReads (orgID userID : UUID) (missing : String) :
    (currentMember orgID userID missing).OnlyReads := by
  refine .exceptT_bind (inTx_onlyReads rfl) fun r => ?_
  split <;> trivial

theorem requireAnotherOwner_onlyReads (orgID : UUID) (refusal : String) :
    (requireAnotherOwner orgID refusal).OnlyReads := by
  refine .exceptT_bind (inTx_onlyReads rfl) fun r => ?_
  split
  · trivial
  · split <;> trivial

theorem requireMayRemove_onlyReads (ctx : Option Claims) (orgID userID : UUID) :
    (requireMayRemove ctx orgID userID).OnlyReads := by
  refine .exceptT_bind (requireAuthenticated_onlyReads ctx) fun callerClaims => ?_
  split
  · trivial
  · refine .exceptT_bind (withConnection_onlyReads rfl) fun callerMember => ?_
    split
    · trivial
    · trivial
    · split
      · trivial
      · split
        · split <;> trivial
        · split <;> trivial
        · refine .exceptT_bind (withConnection_onlyReads rfl) fun targetMember => ?_
          split
          · trivial
          · trivial
          · split <;> trivial
        · trivial

end Richter.Members
