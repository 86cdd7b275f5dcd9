import Richter.Members.Db

/-! Request handlers, and the access checks of `internal/authz`.  A handler sees the claims of its
token and the fields of its request as the interceptors have validated and parsed them. -/

namespace Richter.Members

open Lib

inductive UserRole
  | unspecified
  | normal
  | admin
  deriving DecidableEq, Repr

inductive UserStatus
  | unspecified
  | pending
  | active
  | disabled
  deriving DecidableEq, Repr

/-- The claims of a token. -/
structure Claims where
  sub : UUID
  role : UserRole
  status : UserStatus
  deriving DecidableEq, Repr

abbrev Handler := ExceptT Error (Prog Op Op.Resp)

def orConnectDBError {α : Type} (x : Handler α) : Handler α :=
  tryCatch x fun e => throw e.withCode

/-- `db.WithConnection` around one statement. -/
def withConnection (q : Query) : Handler (Except DbError q.Result) :=
  ExceptT.lift (Prog.perform (Op.conn q))

/-- A statement of the transaction. -/
def inTx (q : Query) : Handler (Except DbError q.Result) :=
  ExceptT.lift (Prog.perform (Op.tx q))

/-- An error of the statement is the handler's. -/
def orReturn {α : Type} : Except DbError α → Handler α
  | .ok a => pure a
  | .error e => throw (.db e)

/-- `db.WithCommitTx`. -/
def withCommitTx {α : Type} (f : Handler α) : Handler α := ExceptT.mk do
  let begun : Except DbError Unit ← Prog.perform Op.begin
  match begun with
  | .error e => return .error (.db e)
  | .ok () =>
    match ← f.run with
    | .error e =>
      let () ← Prog.perform Op.rollback
      return .error e
    | .ok out =>
      let committed : Except DbError Unit ← Prog.perform Op.commit
      match committed with
      | .error e =>
        let () ← Prog.perform Op.rollback
        return .error (.db e)
      | .ok () => return .ok out

/-- `RequireAuthenticated`. -/
def requireAuthenticated : Option Claims → Handler Claims
  | none => throw (.connect .unauthenticated "unauthenticated")
  | some claims =>
      if claims.status = .active then pure claims
      else throw (.connect .permissionDenied "account is not active")

/-- `RequireOrgRole`. -/
def requireOrgRole (ctx : Option Claims) (orgID : UUID) (roles : List OrganizationRole) :
    Handler Claims := do
  let claims ← requireAuthenticated ctx
  if claims.role = .admin then return claims
  match ← withConnection (.getOrganizationMember orgID claims.sub) with
  | .error .noRows => throw (.connect .permissionDenied "not a member of this organization")
  | .error _ => throw (.connect .internal "internal error")
  | .ok member =>
    if member.status ≠ .active then
      throw (.connect .permissionDenied "membership is not active")
    else if member.role ∈ roles then return claims
    else throw (.connect .permissionDenied "insufficient organization role")

/-- `RequireOrgMember`. -/
def requireOrgMember (ctx : Option Claims) (orgID : UUID) : Handler Claims :=
  requireOrgRole ctx orgID [.owner, .admin, .teacher, .student]

/-- The membership lets its holder pass as an owner or admin of the organization
(`err == nil && Status == active && Role is owner or admin`). -/
def managesOrg : Except DbError OrganizationMember → Bool
  | .ok m => m.status = .active && (m.role = .owner || m.role = .admin)
  | .error _ => false

/-- `RequireCourseMember`. -/
def requireCourseMember (ctx : Option Claims) (courseID : UUID) : Handler Claims := do
  let claims ← requireAuthenticated ctx
  if claims.role = .admin then return claims
  match ← withConnection (.getCourseAccessInfoByCourseID courseID) with
  | .error .noRows => throw (.connect .permissionDenied "course not found or access denied")
  | .error _ => throw (.connect .internal "internal error")
  | .ok info =>
    if info.ownerId = claims.sub then return claims
    let orgMember ← withConnection (.getOrganizationMember info.organizationId claims.sub)
    if managesOrg orgMember then return claims
    match ← withConnection (.isCourseMember courseID claims.sub) with
    | .error _ => throw (.connect .internal "internal error")
    | .ok isMember =>
      if isMember then return claims
      else throw (.connect .permissionDenied "not a member of this course")

/-- `requireCourseManager`. -/
def requireCourseManager (ctx : Option Claims) (courseID : UUID) : Handler Unit := do
  let claims ← requireAuthenticated ctx
  if claims.role = .admin then return
  match ← withConnection (.getCourseAccessInfoByCourseID courseID) with
  | .error .noRows => throw (.connect .notFound "course not found")
  | .error _ => throw (.connect .internal "internal error")
  | .ok info =>
    if info.ownerId = claims.sub then return
    let orgMember ← withConnection (.getOrganizationMember info.organizationId claims.sub)
    if managesOrg orgMember then return
    match ← withConnection (.getCourseMember courseID claims.sub) with
    | .ok courseMember =>
      if courseMember.role = .teacher then return
      else throw (.connect .permissionDenied
        "insufficient permissions to manage course members")
    | .error _ =>
      throw (.connect .permissionDenied "insufficient permissions to manage course members")

/-- The last check of `requireCourseManager`, after a membership of the organization that does not
suffice. -/
def requireTeacher (courseID : UUID) (claims : Claims) : Handler Unit := do
  match ← withConnection (.getCourseMember courseID claims.sub) with
  | .ok courseMember =>
    if courseMember.role = .teacher then return
    else throw (.connect .permissionDenied
      "insufficient permissions to manage course members")
  | .error _ =>
    throw (.connect .permissionDenied "insufficient permissions to manage course members")

section Rules

variable {σ α : Type} {Step : (o : Op) → σ → o.Resp → σ → Prop} {P : σ → Op → Prop}
  {ok : α → σ → Prop} {err : σ → Prop} {s : σ}

theorem meets_withConnection (q : Query) {ok : Except DbError q.Result → σ → Prop} :
    Prog.Meets Step P (withConnection q) ok err s ↔
      P s (.conn q) ∧ ∀ r t, Step (.conn q) s r t → ok r t := Iff.rfl

theorem meets_inTx (q : Query) {ok : Except DbError q.Result → σ → Prop} :
    Prog.Meets Step P (inTx q) ok err s ↔
      P s (.tx q) ∧ ∀ r t, Step (.tx q) s r t → ok r t := Iff.rfl

theorem meets_orReturn (r : Except DbError α) :
    Prog.Meets Step P (orReturn r) ok err s ↔
      match r with
      | .ok a => ok a s
      | .error _ => err s := by
  cases r <;> exact Iff.rfl

theorem meets_orConnectDBError {x : Handler α} (h : Prog.Meets Step P x ok err s) :
    Prog.Meets Step P (orConnectDBError x) ok err s := h.tryCatch Error.withCode

/-- A transaction: the body runs between `BEGIN` and `COMMIT`, and an error of the body or of the
commit ends in a rollback. -/
theorem meets_withCommitTx {f : Handler α} (hBegin : P s .begin)
    (hFailed : ∀ e t, Step .begin s (.error e) t → err t)
    (h : ∀ t, Step .begin s (.ok ()) t →
      Prog.Meets Step P f
        (fun a u => P u .commit ∧ (∀ v, Step .commit u (.ok ()) v → ok a v) ∧
          ∀ e v, Step .commit u (.error e) v → P v .rollback ∧
            ∀ w, Step .rollback v () w → err w)
        (fun u => P u .rollback ∧ ∀ v, Step .rollback u () v → err v) t) :
    Prog.Meets Step P (withCommitTx f) ok err s := by
  refine ⟨hBegin, fun r t hStep => ?_⟩
  cases r with
  | error e => exact hFailed e t hStep
  | ok u =>
    refine (Prog.ensures_bind (p := f.run) _).mpr
      (Prog.Ensures.mono (h t hStep) (fun _ _ => id) ?_)
    rintro (e | a) u hBody
    · exact ⟨hBody.1, fun _ v hRollback => hBody.2 v hRollback⟩
    · refine ⟨hBody.1, fun r v hCommit => ?_⟩
      cases r with
      | ok _ => exact hBody.2.1 v hCommit
      | error e =>
        obtain ⟨hP, hErr⟩ := hBody.2.2 e v hCommit
        exact ⟨hP, fun _ w hRollback => hErr w hRollback⟩

theorem meets_requireAuthenticated (ctx : Option Claims) {ok : Claims → σ → Prop} :
    Prog.Meets Step P (requireAuthenticated ctx) ok err s ↔
      (∀ claims, ctx = some claims → claims.status = .active → ok claims s) ∧
      ((∀ claims, ctx = some claims → claims.status ≠ .active) → err s) := by
  cases ctx with
  | none => simp [requireAuthenticated]
  | some claims =>
    by_cases hActive : claims.status = .active <;> simp [requireAuthenticated, hActive]

end Rules

/-! The access checks only read. -/

/-- A statement that writes nothing, on either kind of connection. -/
def Op.isRead : Op → Bool
  | .conn q | .tx q => q.isRead
  | .begin | .commit | .rollback => false

abbrev Handler.OnlyReads {α : Type} (x : Handler α) : Prop :=
  x.run.Performs fun o => o.isRead = true

theorem withConnection_onlyReads {q : Query} (h : q.isRead = true) :
    Handler.OnlyReads (withConnection q) := ⟨h, fun _ => trivial⟩

theorem inTx_onlyReads {q : Query} (h : q.isRead = true) : Handler.OnlyReads (inTx q) :=
  ⟨h, fun _ => trivial⟩

theorem requireAuthenticated_onlyReads (ctx : Option Claims) :
    (requireAuthenticated ctx).OnlyReads := by
  unfold requireAuthenticated
  split
  · trivial
  · split <;> trivial

theorem requireOrgRole_onlyReads (ctx : Option Claims) (orgID : UUID)
    (roles : List OrganizationRole) : (requireOrgRole ctx orgID roles).OnlyReads := by
  refine .exceptT_bind (requireAuthenticated_onlyReads ctx) fun claims => ?_
  split
  · trivial
  · refine .exceptT_bind (withConnection_onlyReads rfl) fun member => ?_
    split
    · trivial
    · trivial
    · split
      · trivial
      · split <;> trivial

theorem requireCourseManager_onlyReads (ctx : Option Claims) (courseID : UUID) :
    (requireCourseManager ctx courseID).OnlyReads := by
  refine .exceptT_bind (requireAuthenticated_onlyReads ctx) fun claims => ?_
  split
  · trivial
  · refine .exceptT_bind (withConnection_onlyReads rfl) fun info => ?_
    split
    · trivial
    · trivial
    · split
      · trivial
      · refine .exceptT_bind (withConnection_onlyReads rfl) fun orgMember => ?_
        split
        · trivial
        · refine .exceptT_bind (withConnection_onlyReads rfl) fun courseMember => ?_
          split
          · split <;> trivial
          · trivial

end Richter.Members
