import Richter.Members.CourseAccess
import Richter.Members.LastOwner

/-! Who changes a membership of an organization, while any number of requests of the membership
services run side by side. -/

namespace Richter.Members

open Lib

/-- Requests of the membership services that are served side by side, by their numbers. -/
abbrev Calls := Pool Nat (Store Nat) Op Op.Resp (Except Error Unit)

def Calls.start (db : Db) (request : Nat → Option Claims × Call) : Calls :=
  Pool.start (.quiet db) fun i => ((request i).2.handler (request i).1).run

def calls : Machine Calls (Nat × Option DbError) := Pool.machine exec

/-- The membership of an organization that a statement writes. -/
def Query.touches : Query → Option (UUID × UUID)
  | .addOrganizationMember m => some m.key
  | .updateOrganizationMemberRole orgID userID _ | .updateOrganizationMemberStatus orgID userID _
  | .removeOrganizationMember orgID userID => some (orgID, userID)
  | _ => none

/-- The statement gives the role of an owner. -/
def Query.makesOwner : Query → Bool
  | .addOrganizationMember m => m.role = .owner
  | .updateOrganizationMemberRole _ _ role => role = .owner
  | _ => false

/-- The caller's membership has been read and was an active one with one of the roles. -/
def HasRole (h : History) (orgID sub : UUID) (roles : List OrganizationRole) : Prop :=
  ∃ m, ⟨.conn (.getOrganizationMember orgID sub), .ok m⟩ ∈ h ∧ m.status = .active ∧ m.role ∈ roles

/-- The membership has been read, in a transaction or outside of one. -/
def ReadMember (h : History) (key : UUID × UUID) (m : OrganizationMember) : Prop :=
  ⟨.conn (.getOrganizationMember key.1 key.2), .ok m⟩ ∈ h ∨
    ⟨.tx (.getOrganizationMember key.1 key.2), .ok m⟩ ∈ h

/-- What a member may do to a membership of their own: to end it, or to accept the invitation. -/
def OwnChange (h : History) (key : UUID × UUID) (q : Query) : Prop :=
  q = .removeOrganizationMember key.1 key.2 ∨
    q = .updateOrganizationMemberStatus key.1 key.2 .active ∧
      ∃ m, ReadMember h key m ∧ m.status = .invited

/-- What the rank of the caller lets the caller write: owners of the organization and system admins
write anything, its admins what does not concern an owner, and everyone their own membership. -/
def RankAllows (claims : Claims) (h : History) (key : UUID × UUID) (q : Query) : Prop :=
  claims.role = .admin ∨ HasRole h key.1 claims.sub [.owner] ∨
    (HasRole h key.1 claims.sub [.admin, .owner] ∧ q.makesOwner = false ∧
      ((∃ m, q = .addOrganizationMember m) ∨ ∃ m, ReadMember h key m ∧ m.role ≠ .owner)) ∨
    (key.2 = claims.sub ∧ OwnChange h key q)

/-- A write of a membership comes after the check of the caller's rank. -/
def Permitted (ctx : Option Claims) (h : History) (q : Query) : Prop :=
  ∀ key, q.touches = some key →
    ∃ claims, ctx = some claims ∧ claims.status = .active ∧ RankAllows claims h key q

/-- The open transaction, if there is one, has written nothing. -/
def Clean (h : History) : Prop := (History.pending h).getD [] = []

/-- What the requests make sure of: what is written in a transaction is written after all of its
reads, and what writes a membership is written last. -/
def Allowed (ctx : Option Claims) (h : History) : Op → Prop
  | .conn q => Permitted ctx h q
  | .tx q => q.isRead = true → Clean h
  | .commit => ∃ qs q, History.pending h = some (qs ++ [q]) ∧
      (∀ q' ∈ qs, q'.touches = none) ∧ Permitted ctx h q
  | .begin | .rollback => True

/-- A request, or a part of it, whose operations are allowed by the history they add to. -/
abbrev Allows {α : Type} (ctx : Option Claims) (x : Handler α) (ok : α → History → Prop)
    (h : History) : Prop :=
  Prog.Meets (fun o h r h' => h' = h ++ [⟨o, r⟩]) (Allowed ctx) x ok (fun _ => True) h

section History

variable {h h' : History} {orgID sub : UUID} {roles : List OrganizationRole} {key : UUID × UUID}
  {m : OrganizationMember} {q : Query} {claims : Claims}

theorem Query.touches_of_isRead (hq : q.isRead = true) : q.touches = none := by
  cases q <;> first | rfl | cases hq

theorem permitted_of_none {ctx : Option Claims} (hq : q.touches = none) : Permitted ctx h q := by
  intro key hKey
  rw [hq] at hKey
  cases hKey

theorem HasRole.mono (hSub : h ⊆ h') (hRole : HasRole h orgID sub roles) :
    HasRole h' orgID sub roles := by
  obtain ⟨m, hm, hRest⟩ := hRole
  exact ⟨m, hSub hm, hRest⟩

theorem ReadMember.mono (hSub : h ⊆ h') (hRead : ReadMember h key m) : ReadMember h' key m :=
  hRead.imp (fun hm => hSub hm) fun hm => hSub hm

theorem RankAllows.mono (hSub : h ⊆ h') (hRank : RankAllows claims h key q) :
    RankAllows claims h' key q := by
  rcases hRank with hAdmin | hOwner | ⟨hManager, hMakes, hTarget⟩ | ⟨hSelf, hOwn⟩
  · exact .inl hAdmin
  · exact .inr (.inl (hOwner.mono hSub))
  · refine .inr (.inr (.inl ⟨hManager.mono hSub, hMakes, hTarget.imp_right ?_⟩))
    rintro ⟨m, hm, hRole⟩
    exact ⟨m, hm.mono hSub, hRole⟩
  · refine .inr (.inr (.inr ⟨hSelf, hOwn.imp_right ?_⟩))
    rintro ⟨hq, m, hm, hInvited⟩
    exact ⟨hq, m, hm.mono hSub, hInvited⟩

end History

section Allows

variable {α β : Type} {ctx : Option Claims} {h : History} {orgID userID : UUID}
  {roles : List OrganizationRole} {q : Query}

/-- Reads add to the history and leave the transaction's writes as they are. -/
theorem allows_onlyReads {x : Handler α} (hx : x.OnlyReads) (hClean : Clean h) :
    Allows ctx x (fun _ h' => h ⊆ h' ∧ History.pending h' = History.pending h) h := by
  refine (Prog.Performs.meets (I := fun h' => h ⊆ h' ∧ History.pending h' = History.pending h)
    hx ?_ ?_ ⟨fun _ => id, rfl⟩).mono (fun _ _ => id) fun _ _ => trivial
  · rintro h' o hRead ⟨-, hPending⟩
    cases o with
    | conn q => exact permitted_of_none (Query.touches_of_isRead hRead)
    | tx q => exact fun _ => by rw [Clean, hPending]; exact hClean
    | begin | commit | rollback => cases hRead
  · rintro o h₁ r _ hRead ⟨hSub, hPending⟩ rfl
    refine ⟨fun e he => List.mem_append_left _ (hSub he), ?_⟩
    rw [History.pending_append, ← hPending]
    cases o with
    | conn q => rfl
    | tx q =>
      have hq : q.isRead = true := hRead
      cases r <;> simp [track, hq]
    | begin | commit | rollback => cases hRead

theorem allows_reads_bind {x : Handler α} {f : α → Handler β} {ok : β → History → Prop}
    (hx : x.OnlyReads) (hClean : Clean h)
    (hf : ∀ a h', h ⊆ h' → History.pending h' = History.pending h → Allows ctx (f a) ok h') :
    Allows ctx (x >>= f) ok h :=
  (allows_onlyReads hx hClean).bind fun a h' hh => hf a h' hh.1 hh.2

/-- Whoever passes the check is a system admin or has one of the roles. -/
theorem allows_requireOrgRole :
    Allows ctx (requireOrgRole ctx orgID roles) (fun claims h' => h ⊆ h' ∧
      History.pending h' = History.pending h ∧ ctx = some claims ∧ claims.status = .active ∧
      (claims.role = .admin ∨ HasRole h' orgID claims.sub roles)) h := by
  refine (Prog.meets_bind _).mpr ((meets_requireAuthenticated _).mpr ⟨?_, fun _ => trivial⟩)
  intro claims hClaims hActive
  split
  · next hAdmin => exact ⟨fun _ => id, rfl, hClaims, hActive, .inl hAdmin⟩
  · refine (Prog.meets_bind _).mpr ((meets_withConnection _).mpr
      ⟨permitted_of_none rfl, fun r h' hNext => ?_⟩)
    subst hNext
    split
    · trivial
    · trivial
    · next member =>
      split
      · trivial
      · next hStatus =>
        split
        · next hRole =>
          refine ⟨List.subset_append_left .., by simp [track], hClaims, hActive, .inr ?_⟩
          exact ⟨member, by simp, not_not.mp hStatus, hRole⟩
        · trivial

/-- The body of a transaction only has to see to the commit. -/
theorem allows_withCommitTx {f : Handler α}
    (hf : ∀ h', h ⊆ h' → History.pending h' = some [] →
      Allows ctx f (fun _ h'' => Allowed ctx h'' .commit) h') :
    Allows ctx (withCommitTx f) (fun _ _ => True) h := by
  refine meets_withCommitTx trivial (fun _ _ _ => trivial) ?_
  rintro t rfl
  have hPending : History.pending (h ++ [⟨.begin, .ok ()⟩]) = some [] := by
    rw [History.pending_append]
    rfl
  refine (hf _ (List.subset_append_left ..) hPending).mono ?_ fun _ _ => ⟨trivial, fun _ _ => trivial⟩
  exact fun a u hCommit => ⟨hCommit, fun _ _ => trivial, fun _ _ _ => ⟨trivial, fun _ _ => trivial⟩⟩

theorem allows_currentMember {missing : String} (hPending : History.pending h = some []) :
    Allows ctx (currentMember orgID userID missing) (fun m h' => h ⊆ h' ∧
      ReadMember h' (orgID, userID) m ∧ History.pending h' = some []) h := by
  refine (Prog.meets_bind _).mpr ((meets_inTx _).mpr ⟨fun _ => by simp [Clean, hPending], ?_⟩)
  rintro r t rfl
  rcases r with (_ | _ | _) | m
  · trivial
  · trivial
  · trivial
  · exact ⟨List.subset_append_left .., .inr (by simp), by simp [track, Query.isRead, hPending]⟩

/-- The last statement of a transaction, when those before it write no membership of an
organization. -/
theorem allows_lastWrite {qs : List Query} (hPending : History.pending h = some qs)
    (hqs : ∀ q' ∈ qs, q'.touches = none) (hq : q.isRead = false) (hPermitted : Permitted ctx h q) :
    Allows ctx (do orReturn (← inTx q)) (fun _ h' => Allowed ctx h' .commit) h := by
  refine (Prog.meets_bind _).mpr ((meets_inTx _).mpr ⟨fun hRead => ?_, ?_⟩)
  · rw [hq] at hRead
    cases hRead
  rintro r t rfl
  cases r with
  | error e => trivial
  | ok a =>
    refine (meets_orReturn _).mpr ⟨qs, q, by simp [track, hq, hPending], hqs, fun key hKey => ?_⟩
    obtain ⟨claims, hClaims, hActive, hRank⟩ := hPermitted key hKey
    exact ⟨claims, hClaims, hActive, hRank.mono (List.subset_append_left ..)⟩

/-- A statement of its own that the caller may run. -/
theorem allows_statement (hPermitted : Permitted ctx h q) :
    Allows ctx (do orConnectDBError (orReturn (← withConnection q))) (fun _ _ => True) h := by
  refine (Prog.meets_bind _).mpr ((meets_withConnection q).mpr ⟨hPermitted, fun r t _ => ?_⟩)
  refine meets_orConnectDBError ((meets_orReturn r).mpr ?_)
  cases r <;> trivial

theorem addOrganizationMember_allows (role : OrganizationRole) (status : MemberStatus) :
    Allows ctx (addOrganizationMember ctx orgID userID role status) (fun _ _ => True) h := by
  refine allows_requireOrgRole.bind ?_
  rintro claims h₁ ⟨-, hPending₁, hClaims, hActive, hRank⟩
  split
  · next hOwner =>
    refine allows_requireOrgRole.bind ?_
    rintro claims h₂ ⟨-, -, hClaims, hActive, hRank⟩
    refine allows_statement fun key hKey => ⟨claims, hClaims, hActive, ?_⟩
    cases hKey
    exact hRank.imp_right .inl
  · next hOwner =>
    refine allows_statement fun key hKey => ⟨claims, hClaims, hActive, ?_⟩
    cases hKey
    refine hRank.imp_right fun hRole => .inr (.inl ⟨hRole, ?_, .inl ⟨_, rfl⟩⟩)
    simpa [Query.makesOwner] using hOwner

theorem updateOrganizationMemberRole_allows (role : OrganizationRole) :
    Allows ctx (updateOrganizationMemberRole ctx orgID userID role) (fun _ _ => True) h := by
  refine meets_orConnectDBError (allows_withCommitTx fun h _ hPending => ?_)
  refine (allows_currentMember hPending).bind ?_
  rintro current h₁ ⟨-, hRead, hPending₁⟩
  refine allows_requireOrgRole.bind ?_
  rintro claims h₂ ⟨hSub₂, hPending₂, hClaims, hActive, hRank⟩
  rw [hPending₁] at hPending₂
  have hPermitted : Permitted ctx h₂ (.updateOrganizationMemberRole orgID userID role) := by
    intro key hKey
    cases hKey
    refine ⟨claims, hClaims, hActive, hRank.imp_right fun hRole => ?_⟩
    split at hRole
    · exact .inl hRole
    · next hNot =>
      refine .inr (.inl ⟨hRole, ?_, .inr ⟨current, hRead.mono hSub₂, fun hOwner => ?_⟩⟩)
      · simpa [Query.makesOwner] using fun hOwner => hNot (.inr hOwner)
      · exact hNot (.inl hOwner)
  split
  · refine allows_reads_bind (requireAnotherOwner_onlyReads ..) (by simp [Clean, hPending₂])
      fun _ h₃ hSub₃ hPending₃ => ?_
    refine allows_lastWrite (hPending₃.trans hPending₂) (by simp) rfl fun key hKey => ?_
    obtain ⟨claims, hClaims, hActive, hRank⟩ := hPermitted key hKey
    exact ⟨claims, hClaims, hActive, hRank.mono hSub₃⟩
  · exact allows_lastWrite hPending₂ (by simp) rfl hPermitted

theorem updateOrganizationMemberStatus_allows (status : MemberStatus) :
    Allows ctx (updateOrganizationMemberStatus ctx orgID userID status) (fun _ _ => True) h := by
  refine meets_orConnectDBError (allows_withCommitTx fun h _ hPending => ?_)
  refine (allows_currentMember hPending).bind ?_
  rintro current h₁ ⟨-, hRead, hPending₁⟩
  split
  · refine allows_requireOrgRole.bind ?_
    rintro claims h₂ ⟨-, hPending₂, hClaims, hActive, hRank⟩
    rw [hPending₁] at hPending₂
    have hPermitted : Permitted ctx h₂ (.updateOrganizationMemberStatus orgID userID status) := by
      intro key hKey
      cases hKey
      exact ⟨claims, hClaims, hActive, hRank.imp_right .inl⟩
    split
    · refine allows_reads_bind (requireAnotherOwner_onlyReads ..) (by simp [Clean, hPending₂])
        fun _ h₃ hSub₃ hPending₃ => ?_
      refine allows_lastWrite (hPending₃.trans hPending₂) (by simp) rfl fun key hKey => ?_
      obtain ⟨claims, hClaims, hActive, hRank⟩ := hPermitted key hKey
      exact ⟨claims, hClaims, hActive, hRank.mono hSub₃⟩
    · exact allows_lastWrite hPending₂ (by simp) rfl hPermitted
  · next hOwner =>
    refine allows_requireOrgRole.bind ?_
    rintro claims h₂ ⟨hSub₂, hPending₂, hClaims, hActive, hRank⟩
    rw [hPending₁] at hPending₂
    refine allows_lastWrite hPending₂ (by simp) rfl fun key hKey => ?_
    cases hKey
    exact ⟨claims, hClaims, hActive, hRank.imp_right fun hRole =>
      .inr (.inl ⟨hRole, rfl, .inr ⟨current, hRead.mono hSub₂, hOwner⟩⟩)⟩

/-- Whoever may remove a member is allowed to. -/
theorem allows_requireMayRemove :
    Allows ctx (requireMayRemove ctx orgID userID) (fun _ h' => h ⊆ h' ∧
      History.pending h' = History.pending h ∧
      Permitted ctx h' (.removeOrganizationMember orgID userID)) h := by
  refine (Prog.meets_bind _).mpr ((meets_requireAuthenticated _).mpr ⟨?_, fun _ => trivial⟩)
  intro claims hClaims hActive
  have hPermit : ∀ h' : History,
      RankAllows claims h' (orgID, userID) (.removeOrganizationMember orgID userID) →
      Permitted ctx h' (.removeOrganizationMember orgID userID) := by
    intro h' hRank key hKey
    cases hKey
    exact ⟨claims, hClaims, hActive, hRank⟩
  split
  · next hAdmin => exact ⟨fun _ => id, rfl, hPermit h (.inl hAdmin)⟩
  refine (Prog.meets_bind _).mpr ((meets_withConnection _).mpr
    ⟨permitted_of_none rfl, fun r h₁ hNext => ?_⟩)
  subst hNext
  split
  · trivial
  · trivial
  · next callerMember =>
    split
    · trivial
    · next hStatus =>
      have hRole : ∀ roles : List OrganizationRole, callerMember.role ∈ roles →
          HasRole (h ++ [⟨.conn (.getOrganizationMember orgID claims.sub), .ok callerMember⟩])
            orgID claims.sub roles :=
        fun roles hRole => ⟨callerMember, by simp, not_not.mp hStatus, hRole⟩
      have hSelf : claims.sub = userID → RankAllows claims
          (h ++ [⟨.conn (.getOrganizationMember orgID claims.sub), .ok callerMember⟩])
          (orgID, userID) (.removeOrganizationMember orgID userID) :=
        fun hSame => .inr (.inr (.inr ⟨hSame.symm, .inl rfl⟩))
      have hAdded : h ⊆ h ++ [⟨.conn (.getOrganizationMember orgID claims.sub), .ok callerMember⟩] :=
        List.subset_append_left ..
      split
      · split
        · trivial
        · next hSame => exact ⟨hAdded, by simp [track], hPermit _ (hSelf (not_not.mp hSame))⟩
      · split
        · trivial
        · next hSame => exact ⟨hAdded, by simp [track], hPermit _ (hSelf (not_not.mp hSame))⟩
      · next hCaller =>
        refine (Prog.meets_bind _).mpr ((meets_withConnection _).mpr
          ⟨permitted_of_none rfl, fun r h₂ hNext => ?_⟩)
        subst hNext
        split
        · trivial
        · trivial
        · next targetMember =>
          split
          · trivial
          · next hTarget =>
            refine ⟨List.Subset.trans hAdded (List.subset_append_left ..), ?_, hPermit _ ?_⟩
            · rw [History.pending_append, History.pending_append]
              rfl
            refine .inr (.inr (.inl ⟨(hRole [.admin, .owner] (by simp [hCaller])).mono
              (List.subset_append_left ..), rfl, .inr ⟨targetMember, .inl (by simp), hTarget⟩⟩))
      · next hCaller =>
        exact ⟨hAdded, by simp [track], hPermit _ (.inr (.inl (hRole [.owner] (by simp [hCaller]))))⟩

theorem removeOrganizationMember_allows :
    Allows ctx (removeOrganizationMember ctx orgID userID) (fun _ _ => True) h := by
  refine allows_requireMayRemove.bind ?_
  rintro _ h₀ ⟨-, -, hPermitted⟩
  refine (meets_orConnectDBError (allows_withCommitTx fun h hSub hPending => ?_)).bind ?_
  · refine (allows_currentMember hPending).bind ?_
    rintro target h₁ ⟨hSub₁, -, hPending₁⟩
    have hWrites : ∀ h₂ : History, h₁ ⊆ h₂ → History.pending h₂ = some [] →
        Allows ctx (removeWithCourseMemberships orgID userID)
          (fun _ h' => Allowed ctx h' .commit) h₂ := by
      intro h₂ hSub₂ hPending₂
      refine (Prog.meets_bind _).mpr ((meets_inTx _).mpr ⟨fun hRead => (by cases hRead), ?_⟩)
      rintro r t rfl
      cases r with
      | error e => trivial
      | ok n =>
        refine allows_lastWrite (show History.pending _ =
          some [.removeCourseMembershipsForUserInOrg orgID userID] by
            simp [track, Query.isRead, hPending₂]) (by simp [Query.touches]) rfl
          fun key hKey => ?_
        obtain ⟨claims, hClaims, hActive, hRank⟩ := hPermitted key hKey
        exact ⟨claims, hClaims, hActive, hRank.mono
          (List.Subset.trans
          (List.Subset.trans hSub (List.Subset.trans hSub₁ hSub₂)) (List.subset_append_left ..))⟩
    split
    · exact allows_reads_bind (requireAnotherOwner_onlyReads ..) (by simp [Clean, hPending₁])
        fun _ h₂ hSub₂ hPending₂ => hWrites h₂ hSub₂ (hPending₂.trans hPending₁)
    · exact hWrites h₁ (fun _ => id) hPending₁
  · intro rowsAffected t _
    split <;> trivial

theorem respondToOrganizationInvitation_allows (accept : Bool) :
    Allows ctx (respondToOrganizationInvitation ctx orgID accept) (fun _ _ => True) h := by
  refine (Prog.meets_bind _).mpr ((meets_requireAuthenticated _).mpr ⟨?_, fun _ => trivial⟩)
  intro claims hClaims hActive
  refine meets_orConnectDBError (allows_withCommitTx fun h _ hPending => ?_)
  refine (allows_currentMember hPending).bind ?_
  rintro current h₁ ⟨-, hRead, hPending₁⟩
  split
  · trivial
  · next hStatus =>
    split
    · refine (allows_lastWrite hPending₁ (by simp) rfl fun key hKey => ?_).bind
        fun _ _ hCommit => hCommit
      cases hKey
      exact ⟨claims, hClaims, hActive, .inr (.inr (.inr
        ⟨rfl, .inr ⟨rfl, current, hRead, not_not.mp hStatus⟩⟩))⟩
    · refine (Prog.meets_bind _).mpr ((meets_inTx _).mpr ⟨fun hRead => (by cases hRead), ?_⟩)
      rintro r t rfl
      cases r with
      | error e => trivial
      | ok n =>
        refine ⟨[], .removeOrganizationMember orgID claims.sub,
          by simp [track, Query.isRead, hPending₁], by simp, fun key hKey => ?_⟩
        cases hKey
        exact ⟨claims, hClaims, hActive, .inr (.inr (.inr ⟨rfl, .inl rfl⟩))⟩

theorem addCourseMember_allows (courseID : UUID) (role : CourseRole) (hClean : Clean h) :
    Allows ctx (addCourseMember ctx courseID userID role) (fun _ _ => True) h := by
  refine allows_reads_bind (requireCourseManager_onlyReads ..) hClean fun _ h₁ _ hPending₁ => ?_
  have hClean₁ : Clean h₁ := by rwa [Clean, hPending₁]
  refine allows_reads_bind (requireCourse_onlyReads courseID) hClean₁ fun course h₂ _ hPending₂ => ?_
  have hClean₂ : Clean h₂ := by rwa [Clean, hPending₂]
  refine allows_reads_bind (requireActiveOrgMember_onlyReads ..) hClean₂ fun _ h₃ _ _ => ?_
  exact allows_statement (permitted_of_none rfl)

theorem removeCourseMember_allows (courseID : UUID) (hClean : Clean h) :
    Allows ctx (removeCourseMember ctx courseID userID) (fun _ _ => True) h := by
  refine allows_reads_bind (requireCourseManager_onlyReads ..) hClean fun _ h₁ _ _ => ?_
  refine (Prog.meets_bind _).mpr ((meets_withConnection _).mpr
    ⟨permitted_of_none rfl, fun r t _ => ?_⟩)
  have hRows : ∀ t, Allows ctx (orConnectDBError (orReturn r)) (fun _ _ => True) t := fun t =>
    meets_orConnectDBError ((meets_orReturn r).mpr (by cases r <;> trivial))
  refine (hRows t).bind fun rowsAffected t _ => ?_
  · split <;> trivial

theorem createJoinRequest_allows (courseID : UUID) (role : Option CourseRole) (hClean : Clean h) :
    Allows ctx (createJoinRequest ctx courseID role) (fun _ _ => True) h := by
  refine allows_reads_bind (requireCourse_onlyReads courseID) hClean fun course h₁ _ hPending₁ => ?_
  refine allows_requireOrgRole.bind ?_
  rintro claims h₂ -
  refine (Prog.meets_bind _).mpr ((meets_withConnection _).mpr
    ⟨permitted_of_none rfl, fun r t _ => ?_⟩)
  cases r with
  | error e => trivial
  | ok isMember =>
    dsimp only
    split
    · trivial
    · exact allows_statement (permitted_of_none rfl)

/-- A write that the transaction goes on after. -/
theorem allows_write_bind {qs : List Query} {f : q.Result → Handler α}
    (hPending : History.pending h = some qs) (hq : q.isRead = false)
    (hf : ∀ a h', History.pending h' = some (qs ++ [q]) →
      Allows ctx (f a) (fun _ h'' => Allowed ctx h'' .commit) h') :
    Allows ctx (do
      let a ← orReturn (← inTx q)
      f a) (fun _ h' => Allowed ctx h' .commit) h := by
  refine (Prog.meets_bind _).mpr ((meets_inTx _).mpr ⟨fun hRead => ?_, ?_⟩)
  · rw [hq] at hRead
    cases hRead
  rintro r t rfl
  cases r with
  | error e => trivial
  | ok a => exact hf a _ (by simp [track, hq, hPending])

theorem reviewJoinRequest_allows (courseID : UUID) (approve : Bool) (hClean : Clean h) :
    Allows ctx (reviewJoinRequest ctx courseID userID approve) (fun _ _ => True) h := by
  refine allows_reads_bind (requireCourseManager_onlyReads ..) hClean fun _ h₁ _ hPending₁ => ?_
  have hClean₁ : Clean h₁ := by rwa [Clean, hPending₁]
  cases approve with
  | false =>
    refine meets_orConnectDBError (allows_withCommitTx fun h _ hPending => ?_)
    refine allows_write_bind hPending rfl fun reviewed h' hPending' => ?_
    exact ⟨[], _, hPending', by simp, permitted_of_none rfl⟩
  | true =>
    refine allows_reads_bind (requireCourse_onlyReads courseID) hClean₁
      fun course h₂ _ hPending₂ => ?_
    have hClean₂ : Clean h₂ := by rwa [Clean, hPending₂]
    refine allows_reads_bind (requireActiveOrgMember_onlyReads ..) hClean₂ fun _ h₃ _ _ => ?_
    refine meets_orConnectDBError (allows_withCommitTx fun h _ hPending => ?_)
    refine allows_write_bind hPending rfl fun reviewed h' hPending' => ?_
    refine allows_write_bind hPending' rfl fun member h'' hPending'' => ?_
    exact ⟨[.reviewJoinRequest courseID userID .approved], _, hPending'', by simp [Query.touches],
      permitted_of_none rfl⟩

theorem clean_nil : Clean [] := rfl

theorem Call.allows (call : Call) : Allows ctx (call.handler ctx) (fun _ _ => True) [] := by
  cases call with
  | addOrganizationMember orgID userID role status =>
    exact (addOrganizationMember_allows role status).bind fun _ _ => id
  | updateOrganizationMemberRole orgID userID role =>
    exact (updateOrganizationMemberRole_allows role).bind fun _ _ => id
  | updateOrganizationMemberStatus orgID userID status =>
    exact (updateOrganizationMemberStatus_allows status).bind fun _ _ => id
  | removeOrganizationMember orgID userID => exact removeOrganizationMember_allows
  | respondToOrganizationInvitation orgID accept =>
    exact (respondToOrganizationInvitation_allows accept).bind fun _ _ => id
  | addCourseMember courseID userID role =>
    exact (addCourseMember_allows courseID role clean_nil).bind fun _ _ => id
  | removeCourseMember courseID userID => exact removeCourseMember_allows courseID clean_nil
  | createJoinRequest courseID role =>
    exact (createJoinRequest_allows courseID role clean_nil).bind fun _ _ => id
  | reviewJoinRequest courseID userID approve =>
    exact reviewJoinRequest_allows courseID approve clean_nil

end Allows

/-- The role of a membership. -/
def Db.roleAt (db : Db) (key : UUID × UUID) : Option OrganizationRole :=
  (db.organizationMembers.find key).map (·.role)

section Changes

variable {db : Db} {q : Query} {key : UUID × UUID}

/-- A statement changes the membership that it writes, and no other. -/
theorem touches_of_changed
    (h : (q.apply db).organizationMembers.find key ≠ db.organizationMembers.find key) :
    q.touches = some key := by
  cases q with
  | addOrganizationMember m =>
    simp only [Query.apply] at h
    cases hIns : db.organizationMembers.insert m with
    | none => simp [hIns] at h
    | some t =>
      rw [hIns, Option.getD_some, Table.find_insert hIns] at h
      by_cases hKey : key = m.key
      · rw [hKey]
        rfl
      · simp [hKey] at h
  | updateOrganizationMemberRole orgID userID role =>
    obtain ⟨m, hm, hp⟩ := Table.find_update_ne (OrganizationMember.setRole_key role) h
    rw [Query.touches, ← of_decide_eq_true hp, Table.find_key hm]
  | updateOrganizationMemberStatus orgID userID status =>
    obtain ⟨m, hm, hp⟩ := Table.find_update_ne (OrganizationMember.setStatus_key status) h
    rw [Query.touches, ← of_decide_eq_true hp, Table.find_key hm]
  | removeOrganizationMember orgID userID =>
    by_contra hNot
    have hKey : ¬ (orgID, userID) = key := fun hKey => hNot (congrArg some hKey)
    refine h ?_
    simp only [Query.apply, Table.find_delete]
    cases hm : db.organizationMembers.find key with
    | none => rfl
    | some m =>
      have hmKey := Table.find_key hm
      simp [Option.filter, hmKey, Ne.symm hKey]
  | _ => exact absurd rfl h

/-- Only a statement that gives the role of an owner makes one. -/
theorem roleAt_apply (hMakes : q.makesOwner = false) (h : (q.apply db).roleAt key = some .owner) :
    db.roleAt key = some .owner := by
  by_cases hSame : (q.apply db).organizationMembers.find key = db.organizationMembers.find key
  · rwa [Db.roleAt, ← hSame]
  have hTouches := touches_of_changed hSame
  cases q with
  | addOrganizationMember m =>
    cases hTouches
    simp only [Db.roleAt, Query.apply] at h hSame
    cases hIns : db.organizationMembers.insert m with
    | none => simp [hIns] at hSame
    | some t =>
      rw [hIns, Option.getD_some, Table.find_insert hIns] at h
      simp [Query.makesOwner] at hMakes
      simp [hMakes] at h
  | updateOrganizationMemberRole orgID userID role =>
    cases hTouches
    simp only [Db.roleAt, Query.apply, Table.find_update, Option.map_map] at h
    obtain ⟨m, hm, hRole⟩ := Option.map_eq_some_iff.mp h
    have hKey : m.key = (orgID, userID) := Table.find_key hm
    simp [hKey, OrganizationMember.setRole] at hRole
    simp [Query.makesOwner, hRole] at hMakes
  | updateOrganizationMemberStatus orgID userID status =>
    cases hTouches
    simp only [Db.roleAt, Query.apply, Table.find_update, Option.map_map] at h
    obtain ⟨m, hm, hRole⟩ := Option.map_eq_some_iff.mp h
    have hKey : m.key = (orgID, userID) := Table.find_key hm
    simp [hKey, OrganizationMember.setStatus] at hRole
    simp [Db.roleAt, hm, hRole]
  | removeOrganizationMember orgID userID =>
    cases hTouches
    simp only [Db.roleAt, Query.apply, Table.find_delete] at h
    obtain ⟨m, hm, -⟩ := Option.map_eq_some_iff.mp h
    obtain ⟨hm, hKept⟩ := Option.filter_eq_some_iff.mp hm
    simp [show m.key = (orgID, userID) from Table.find_key hm] at hKept
  | _ => cases hTouches

/-- A membership is only added where there was none. -/
theorem find_of_added {m : OrganizationMember}
    (h : ((Query.addOrganizationMember m).apply db).organizationMembers.find m.key ≠
      db.organizationMembers.find m.key) : db.organizationMembers.find m.key = none := by
  simp only [Query.apply] at h
  cases hIns : db.organizationMembers.insert m with
  | none => simp [hIns] at h
  | some t => exact Table.find_of_insert hIns

theorem find_removed :
    ((Query.removeOrganizationMember key.1 key.2).apply db).organizationMembers.find key =
      none := by
  simp only [Query.apply, Table.find_delete]
  cases hm : db.organizationMembers.find key with
  | none => rfl
  | some m => simp [Option.filter, Table.find_key hm]

theorem status_of_activated
    (h : ((Query.updateOrganizationMemberStatus key.1 key.2 .active).apply
      db).organizationMembers.find key ≠ db.organizationMembers.find key) :
    (((Query.updateOrganizationMemberStatus key.1 key.2 .active).apply
      db).organizationMembers.find key).map (·.status) = some .active := by
  simp only [Query.apply, Table.find_update] at h ⊢
  cases hm : db.organizationMembers.find key with
  | none => simp [hm] at h
  | some m => simp [Table.find_key hm, OrganizationMember.setStatus]

/-- Statements that write no membership of an organization. -/
theorem applyAll_organizationMembers {qs : List Query} (hqs : ∀ q' ∈ qs, q'.touches = none) :
    (TxnStore.applyAll Query.apply qs db).organizationMembers = db.organizationMembers := by
  induction qs generalizing db with
  | nil => rfl
  | cons q qs ih =>
    rw [List.forall_mem_cons] at hqs
    refine (ih hqs.2).trans ?_
    cases q <;> first | rfl | cases hqs.1

end Changes

/-- In one of the states the user was an active member of the organization with one of the
roles. -/
def WasMember (V : Calls → Prop) (orgID userID : UUID) (roles : List OrganizationRole) : Prop :=
  ∃ s m, V s ∧ s.store.committed.organizationMembers.find (orgID, userID) = some m ∧
    m.status = .active ∧ m.role ∈ roles

/-- The store carries the writes that the histories tell of, and the memberships that have been
read were there in one of the states. -/
structure Traced (V : Calls → Prop) (p : Calls) : Prop where
  pending : ∀ i, p.store.pending i = History.pending (p.hist i)
  read : ∀ i key m, ReadMember (p.hist i) key m →
    ∃ s, V s ∧ s.store.committed.organizationMembers.find key = some m

abbrev Allowing (request : Nat → Option Claims × Call) (p : Calls) : Prop :=
  ∀ i, (p.thread i).prog.Along (Allowed (request i).1) (fun _ _ => True) (p.hist i)

section Runs

variable {V W : Calls → Prop} {request : Nat → Option Claims × Call} {p q : Calls} {i : Nat}
  {w : Option DbError} {orgID sub : UUID} {roles : List OrganizationRole} {key : UUID × UUID}

theorem HasRole.wasMember (hp : Traced V p) (h : HasRole (p.hist i) orgID sub roles) :
    WasMember V orgID sub roles := by
  obtain ⟨m, hm, hActive, hRole⟩ := h
  obtain ⟨s, hs, hFind⟩ := hp.read i (orgID, sub) m (.inl hm)
  exact ⟨s, m, hs, hFind, hActive, hRole⟩

theorem Traced.mono (hVW : ∀ s, V s → W s) (hp : Traced V p) : Traced W p where
  pending := hp.pending
  read i key m h := by
    obtain ⟨s, hs, hFind⟩ := hp.read i key m h
    exact ⟨s, hVW s hs, hFind⟩

theorem traced_step (hAllowing : Allowing request p) (hp : Traced V p)
    (h : calls.step p (i, w) = some q) : Traced (fun s => V s ∨ s = q) q := by
  obtain ⟨o, r, -, hOp, hExec, hHist, -⟩ := Pool.step_along h hAllowing
  obtain ⟨hSelf, hOthers⟩ := exec_pending hExec
  have hNew : ∀ {key m}, ReadMember (p.hist i ++ [⟨o, r⟩]) key m → ReadMember (p.hist i) key m ∨
      q.store.committed.organizationMembers.find key = some m := by
    intro key m hRead
    simp only [ReadMember, List.mem_append, List.mem_singleton] at hRead
    rcases hRead with (hOld | hNew) | (hOld | hNew)
    · exact .inl (.inl hOld)
    · cases hNew
      obtain ⟨hSame, hAnswer⟩ := exec_conn_read rfl hExec
      rw [hSame]
      exact .inr (one_eq_ok.mp (hAnswer m rfl))
    · exact .inl (.inr hOld)
    · cases hNew
      obtain ⟨hSame, hAnswer⟩ := exec_tx_read rfl hExec
      have hClean : (p.store.pending i).getD [] = [] := by
        rw [hp.pending]
        exact hOp rfl
      have hFind := hAnswer m rfl
      rw [TxnStore.view, hClean] at hFind
      rw [hSame]
      exact .inr (one_eq_ok.mp hFind)
  refine ⟨fun j => ?_, fun j key m hRead => ?_⟩
  · rw [hHist]
    by_cases hj : j = i
    · subst hj
      rw [hSelf, hp.pending, Function.update_self, History.pending_append]
    · rw [hOthers j hj, hp.pending, Function.update_of_ne hj]
  · rw [hHist] at hRead
    by_cases hj : j = i
    · subst hj
      rw [Function.update_self] at hRead
      rcases hNew hRead with hOld | hFind
      · obtain ⟨s, hs, hFind⟩ := hp.read j key m hOld
        exact ⟨s, .inl hs, hFind⟩
      · exact ⟨q, .inr rfl, hFind⟩
    · rw [Function.update_of_ne hj] at hRead
      obtain ⟨s, hs, hFind⟩ := hp.read j key m hRead
      exact ⟨s, .inl hs, hFind⟩

/-- A step changes memberships of organizations as a statement does that the caller may run. -/
theorem step_change (hAllowing : Allowing request p) (hp : Traced V p)
    (h : calls.step p (i, w) = some q)
    (hChanged : q.store.committed.organizationMembers ≠ p.store.committed.organizationMembers) :
    ∃ query db, db.organizationMembers = p.store.committed.organizationMembers ∧
      q.store.committed = Query.apply query db ∧ Permitted (request i).1 (p.hist i) query := by
  obtain ⟨o, r, -, hOp, hExec, -, -⟩ := Pool.step_along h hAllowing
  cases o with
  | conn query =>
    obtain ⟨hSame, -⟩ | ⟨a, -, -, hStore⟩ := exec_conn hExec
    · exact absurd (by rw [hSame]) hChanged
    · exact ⟨query, p.store.committed, rfl, by rw [hStore]; rfl, hOp⟩
  | tx query =>
    obtain ⟨hSame, -⟩ | ⟨a, -, -, hStore⟩ := exec_tx hExec
    · exact absurd (by rw [hSame]) hChanged
    · refine absurd ?_ hChanged
      rw [hStore]
      split <;> rfl
  | begin =>
    obtain ⟨hSame, -⟩ | ⟨-, hStore⟩ := exec_begin hExec
    · exact absurd (by rw [hSame]) hChanged
    · exact absurd (by rw [hStore]; rfl) hChanged
  | commit =>
    obtain ⟨hStore, -⟩ | ⟨-, hStore⟩ := exec_commit hExec
    · exact absurd (by rw [hStore]; rfl) hChanged
    · obtain ⟨qs, query, hPending, hqs, hPermitted⟩ := hOp
      refine ⟨query, TxnStore.applyAll Query.apply qs p.store.committed,
        applyAll_organizationMembers hqs, ?_, hPermitted⟩
      rw [hStore, TxnStore.commit_committed, TxnStore.view, hp.pending, hPending]
      simp [TxnStore.applyAll]
  | rollback => exact absurd (by rw [exec_rollback hExec]; rfl) hChanged

/-- The states that a run from a start leads through. -/
abbrev Visited (db : Db) (request : Nat → Option Claims × Call)
    (as : List (Nat × Option DbError)) (s : Calls) : Prop :=
  s ∈ calls.trace (.start db request) as

theorem traced_run {db : Db} {as : List (Nat × Option DbError)}
    (hRun : calls.Runs (fun _ _ => True) (.start db request) as p) :
    Allowing request p ∧ Traced (Visited db request as) p := by
  have hStart : Allowing request (.start db request) ∧
      Traced (fun _ => False) (.start db request) := by
    refine ⟨fun i => ?_, ⟨fun i => rfl, fun i key m hRead => ?_⟩⟩
    · exact Prog.Ensures.mono (request i).2.allows (fun _ _ => id) fun _ _ _ => trivial
    · rcases hRead with hRead | hRead <;> exact absurd hRead List.not_mem_nil
  have hEnd := hRun.invariant_trace (I := fun V p => Allowing request p ∧ Traced V p)
    (fun V W s hVW h => ⟨h.1, h.2.mono hVW⟩) ?_ hStart
  · exact ⟨hEnd.1, hEnd.2.mono fun u hu => hu.resolve_left id⟩
  · rintro V p ⟨i, w⟩ q - hStep ⟨hAllowing, hp⟩
    exact ⟨(Pool.step_along hStep hAllowing).choose_spec.choose_spec.2.2.2.2,
      traced_step hAllowing hp hStep⟩

/-- A membership of an organization changes only by a request of an active account of a system
admin, of one who was an owner of the organization, of one who was an admin of it and found no
owner's membership there, or of the member, who leaves or accepts an invitation.  Only the first two
make an owner. -/
theorem memberships_set_by_rank {db : Db} {as : List (Nat × Option DbError)}
    (hRun : calls.Runs (fun _ _ => True) (.start db request) as p)
    (hStep : calls.step p (i, w) = some q)
    (hChanged : q.store.committed.organizationMembers.find key ≠
      p.store.committed.organizationMembers.find key) :
    ∃ claims, (request i).1 = some claims ∧ claims.status = .active ∧
      (claims.role = .admin ∨ WasMember (Visited db request as) key.1 claims.sub [.owner] ∨
        ((q.store.committed.roleAt key = some .owner →
            p.store.committed.roleAt key = some .owner) ∧
          ((WasMember (Visited db request as) key.1 claims.sub [.admin, .owner] ∧
              ∃ s, Visited db request as s ∧ s.store.committed.roleAt key ≠ some .owner) ∨
            (key.2 = claims.sub ∧ (q.store.committed.organizationMembers.find key = none ∨
              ((q.store.committed.organizationMembers.find key).map (·.status) = some .active ∧
                ∃ s m, Visited db request as s ∧
                  s.store.committed.organizationMembers.find key = some m ∧
                  m.status = .invited)))))) := by
  obtain ⟨hAllowing, hp⟩ := traced_run hRun
  obtain ⟨query, db', hSame, hCommitted, hPermitted⟩ :=
    step_change hAllowing hp hStep fun h => hChanged (by rw [h])
  rw [hCommitted, ← hSame] at hChanged
  have hTouches := touches_of_changed hChanged
  obtain ⟨claims, hClaims, hActive, hRank⟩ := hPermitted key hTouches
  have hBefore : db'.roleAt key = p.store.committed.roleAt key := by
    rw [Db.roleAt, hSame]
    rfl
  have hMakes : query.makesOwner = false → q.store.committed.roleAt key = some .owner →
      p.store.committed.roleAt key = some .owner := by
    intro hMakes h
    rw [← hBefore]
    exact roleAt_apply hMakes (hCommitted ▸ h)
  refine ⟨claims, hClaims, hActive, ?_⟩
  -- a statement of an admin or of the member finds its reason among what has been read
  rcases hRank with hAdmin | hOwner | ⟨hManager, hNot, hTarget⟩ | ⟨hSelf, hOwn⟩
  · exact .inl hAdmin
  · exact .inr (.inl (hOwner.wasMember hp))
  · refine .inr (.inr ⟨hMakes hNot, .inl ⟨hManager.wasMember hp, ?_⟩⟩)
    rcases hTarget with ⟨m, rfl⟩ | ⟨m, hRead, hRole⟩
    · cases hTouches
      refine ⟨p, hRun.mem_trace, ?_⟩
      rw [← hBefore, Db.roleAt, find_of_added hChanged]
      exact fun h => by cases h
    · obtain ⟨s, hs, hFind⟩ := hp.read i key m hRead
      exact ⟨s, hs, by simpa [Db.roleAt, hFind] using hRole⟩
  · refine .inr (.inr ⟨hMakes ?_, .inr ⟨hSelf, ?_⟩⟩)
    · rcases hOwn with rfl | ⟨rfl, -⟩ <;> rfl
    · rw [hCommitted]
      rcases hOwn with rfl | ⟨rfl, m, hRead, hInvited⟩
      · exact .inl find_removed
      · obtain ⟨s, hs, hFind⟩ := hp.read i key m hRead
        exact .inr ⟨status_of_activated hChanged, s, m, hs, hFind, hInvited⟩

/-- An organization with an owner and an admin. -/
def agency : Db where
  organizationMembers := .ofList [⟨1, 100, .owner, .active⟩, ⟨1, 101, .admin, .active⟩]
  courses := .empty
  courseMembers := .empty
  courseJoinRequests := .empty

/-- The admin invites a teacher, who accepts. -/
def invitation : Nat → Option Claims × Call
  | 0 => (some ⟨101, .normal, .active⟩, .addOrganizationMember 1 102 .teacher .invited)
  | _ => (some ⟨102, .normal, .active⟩, .respondToOrganizationInvitation 1 true)

/-- The invitation, and the acceptance up to its commit. -/
def accepting : List (Nat × Option DbError) :=
  List.replicate 2 (0, none) ++ List.replicate 3 (1, none)

def agencyAfter (as : List (Nat × Option DbError)) : Calls :=
  (calls.run (.start agency invitation) as).getD (.start agency invitation)

theorem memberships_set_by_rank_agency :
    ∃ claims, (invitation 1).1 = some claims ∧ claims.status = .active ∧
      (claims.role = .admin ∨ WasMember (Visited agency invitation accepting) 1 claims.sub [.owner] ∨
        (((agencyAfter (accepting ++ [(1, none)])).store.committed.roleAt (1, 102) = some .owner →
            (agencyAfter accepting).store.committed.roleAt (1, 102) = some .owner) ∧
          ((WasMember (Visited agency invitation accepting) 1 claims.sub [.admin, .owner] ∧
              ∃ s, Visited agency invitation accepting s ∧
                s.store.committed.roleAt (1, 102) ≠ some .owner) ∨
            (102 = claims.sub ∧ ((agencyAfter (accepting ++
                [(1, none)])).store.committed.organizationMembers.find (1, 102) = none ∨
              (((agencyAfter (accepting ++
                [(1, none)])).store.committed.organizationMembers.find (1, 102)).map (·.status) =
                  some .active ∧
                ∃ s m, Visited agency invitation accepting s ∧
                  s.store.committed.organizationMembers.find (1, 102) = some m ∧
                  m.status = .invited)))))) :=
  have hChanged :
      (agencyAfter (accepting ++ [(1, none)])).store.committed.organizationMembers.find (1, 102) ≠
        (agencyAfter accepting).store.committed.organizationMembers.find (1, 102) := by
    decide +kernel
  memberships_set_by_rank (w := none) (Machine.Runs.of_run rfl) rfl hChanged

end Runs

end Richter.Members
