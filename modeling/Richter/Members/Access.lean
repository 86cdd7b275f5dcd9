import Richter.Members.Authz

/-! What the access checks come to on one database, when nothing is written meanwhile. -/

namespace Richter.Members

open Lib

/-- What an operation answers when it is the next one that happens. -/
def answer (db : Db) (failure : Option DbError) : (o : Op) → o.Resp
  | .conn q | .tx q =>
    match failure with
    | some e => .error e
    | none => q.answer db
  | .begin | .commit =>
    match failure with
    | some e => .error e
    | none => .ok ()
  | .rollback => ()

/-- A read waits for nobody and leaves the store as it is. -/
theorem exec_conn_eq_answer {ι : Type} [DecidableEq ι] (i : ι) (failure : Option DbError)
    {q : Query} (hq : q.isRead = true) (s : Store ι) :
    exec i failure (.conn q) s = some (answer s.committed failure (.conn q), s) := by
  cases failure with
  | some e => rfl
  | none =>
    have hFree : s.free i (q.rows s.committed) = true := by
      cases q <;> first | rfl | cases hq
    have hCommit : s.autocommit Query.apply q = s := by
      rw [TxnStore.autocommit, Query.apply_of_isRead hq]
    simp only [exec, answer, hFree, if_true, hCommit]
    cases q.answer s.committed <;> rfl

/-- An active account of a system admin, of the course's owner, of an active owner or admin of the
organization, or of a member of the course. -/
def canOpen (db : Db) (claims : Claims) (courseID : UUID) : Bool :=
  claims.status = .active && (claims.role = .admin ||
    (db.courses.find courseID).any fun course =>
      course.ownerId = claims.sub ||
        managesOrg (one (db.organizationMembers.find (course.organizationId, claims.sub))) ||
        (db.courseMembers.find (courseID, claims.sub)).isSome)

/-- An active account of a system admin, or of an active member of the organization with one of the
roles. -/
def hasOrgRole (db : Db) (claims : Claims) (orgID : UUID) (roles : List OrganizationRole) : Bool :=
  claims.status = .active && (claims.role = .admin ||
    (db.organizationMembers.find (orgID, claims.sub)).any fun member =>
      member.status = .active && member.role ∈ roles)

section Checks

variable {db : Db} {claims : Claims} {orgID courseID : UUID} {roles : List OrganizationRole}

/-- A statement of its own either fails or answers from the database. -/
theorem meets_withConnection_bind {α : Type} {W : Option DbError → Prop} {q : Query}
    {f : Except DbError q.Result → Handler α} {ok : α → Unit → Prop} {err : Unit → Prop}
    (hFails : ∀ e, W (some e) →
      Prog.Meets (Prog.Answers (answer db) W) (fun _ _ => True) (f (.error e)) ok err ())
    (h : Prog.Meets (Prog.Answers (answer db) W) (fun _ _ => True) (f (q.answer db)) ok err ()) :
    Prog.Meets (Prog.Answers (answer db) W) (fun _ _ => True) (withConnection q >>= f) ok err
      () := by
  refine (Prog.meets_bind _).mpr ((meets_withConnection q).mpr ⟨trivial, ?_⟩)
  rintro r _ ⟨failure, hW, rfl⟩
  cases failure with
  | some e => exact hFails e hW
  | none => exact h

/-- A check that a failure may make fail is decided by its condition when nothing fails. -/
theorem eval_eq_ok_of_meets {x : Handler Claims} {b : Bool} {c : Claims}
    (h : Prog.Meets (Prog.Answers (answer db) (· = none)) (fun _ _ => True) x
      (fun c _ => c = claims ∧ b = true) (fun _ => (∃ e : DbError, some e = none) ∨ b = false) ()) :
    x.run.eval (answer db) (fun _ => none) = .ok c ↔ c = claims ∧ b = true := by
  have hEval := h.of_eval (w := fun _ => none) fun _ => rfl
  cases hRun : x.run.eval (answer db) (fun _ => none) with
  | ok c' =>
    rw [hRun] at hEval
    simp [hEval.1, hEval.2, eq_comm]
  | error e =>
    rw [hRun] at hEval
    simp only [reduceCtorEq, exists_false, false_or] at hEval
    simp [hEval]

/-- The check passes nobody else, and it fails only who has no such role, or when the statement
does. -/
theorem requireOrgRole_meets (W : Option DbError → Prop) (claims : Claims) (orgID : UUID)
    (roles : List OrganizationRole) :
    Prog.Meets (Prog.Answers (answer db) W) (fun _ _ => True)
      (requireOrgRole (some claims) orgID roles)
      (fun c _ => c = claims ∧ hasOrgRole db claims orgID roles = true)
      (fun _ => (∃ e, W (some e)) ∨ hasOrgRole db claims orgID roles = false) () := by
  refine (Prog.meets_bind _).mpr ((meets_requireAuthenticated _).mpr ⟨?_, fun hNot => ?_⟩)
  · intro c hClaims hActive
    obtain rfl := Option.some.inj hClaims
    split
    · next hAdmin => exact ⟨rfl, by simp [hasOrgRole, hActive, hAdmin]⟩
    · next hAdmin =>
      refine meets_withConnection_bind (fun e hW => by cases e <;> exact .inl ⟨_, hW⟩) ?_
      split
      · next hMember =>
        have hFind := (one_eq_error.mp hMember).1
        exact .inr (by simp [hasOrgRole, hAdmin, hFind])
      · next e hNoRows hMember => exact absurd (one_eq_error.mp hMember).2 hNoRows
      · next member hMember =>
        have hFind : db.organizationMembers.find (orgID, claims.sub) = some member :=
          one_eq_ok.mp hMember
        split
        · next hStatus => exact .inr (by simp [hasOrgRole, hAdmin, hFind, hStatus])
        · next hStatus =>
          split
          · next hRole =>
            exact ⟨rfl, by simpa [hasOrgRole, hActive, hAdmin, hFind, hRole] using hStatus⟩
          · next hRole => exact .inr (by simp [hasOrgRole, hAdmin, hFind, hRole])
  · exact .inr (by simp [hasOrgRole, hNot claims rfl])

theorem requireOrgRole_eval {c : Claims} :
    (requireOrgRole (some claims) orgID roles).run.eval (answer db) (fun _ => none) = .ok c ↔
      c = claims ∧ hasOrgRole db claims orgID roles = true :=
  eval_eq_ok_of_meets (requireOrgRole_meets _ claims orgID roles)

/-- The check passes nobody else, and it fails only who may not open the course, or when a statement
does. -/
theorem requireCourseMember_meets (W : Option DbError → Prop) (claims : Claims) (courseID : UUID) :
    Prog.Meets (Prog.Answers (answer db) W) (fun _ _ => True)
      (requireCourseMember (some claims) courseID)
      (fun c _ => c = claims ∧ canOpen db claims courseID = true)
      (fun _ => (∃ e, W (some e)) ∨ canOpen db claims courseID = false) () := by
  refine (Prog.meets_bind _).mpr ((meets_requireAuthenticated _).mpr ⟨?_, fun hNot => ?_⟩)
  · intro c hClaims hActive
    obtain rfl := Option.some.inj hClaims
    split
    · next hAdmin => exact ⟨rfl, by simp [canOpen, hActive, hAdmin]⟩
    · next hAdmin =>
      refine meets_withConnection_bind (fun e hW => by cases e <;> exact .inl ⟨_, hW⟩) ?_
      split
      · next hInfo =>
        have hFind : db.courses.find courseID = none := (one_eq_error.mp hInfo).1
        exact .inr (by simp [canOpen, hAdmin, hFind])
      · next e hNoRows hInfo => exact absurd (one_eq_error.mp hInfo).2 hNoRows
      · next info hInfo =>
        have hFind : db.courses.find courseID = some info := one_eq_ok.mp hInfo
        split
        · next hOwner => exact ⟨rfl, by simp [canOpen, hActive, hFind, hOwner]⟩
        · next hOwner =>
          -- a membership that could not be read does not pass, and the check goes on
          refine meets_withConnection_bind (fun e hW => ?_) ?_
          · refine meets_withConnection_bind (fun _ _ => .inl ⟨e, hW⟩) ?_
            split
            · exact .inl ⟨e, hW⟩
            · next isMember hMember =>
              obtain rfl := Except.ok.inj hMember
              split
              · next hSome => exact ⟨rfl, by simp [canOpen, hActive, hFind, hSome]⟩
              · exact .inl ⟨e, hW⟩
          · split
            · next hManages =>
              have hOrg : managesOrg (one (db.organizationMembers.find
                (info.organizationId, claims.sub))) = true := hManages
              exact ⟨rfl, by simp [canOpen, hActive, hFind, hOrg]⟩
            · next hManages =>
              have hOrg : managesOrg (one (db.organizationMembers.find
                (info.organizationId, claims.sub))) = false := (Bool.not_eq_true _).mp hManages
              refine meets_withConnection_bind (fun e hW => .inl ⟨e, hW⟩) ?_
              split
              · next hError => cases hError
              · next isMember hMember =>
                obtain rfl := Except.ok.inj hMember
                split
                · next hSome => exact ⟨rfl, by simp [canOpen, hActive, hFind, hSome]⟩
                · next hNone =>
                  exact .inr (by simpa [canOpen, hActive, hAdmin, hFind, hOwner, hOrg] using hNone)
  · exact .inr (by simp [canOpen, hNot claims rfl])

/-- Without failures the check passes exactly who may open the course. -/
theorem requireCourseMember_eval {c : Claims} :
    (requireCourseMember (some claims) courseID).run.eval (answer db) (fun _ => none) = .ok c ↔
      c = claims ∧ canOpen db claims courseID = true :=
  eval_eq_ok_of_meets (requireCourseMember_meets _ claims courseID)

end Checks

end Richter.Members
