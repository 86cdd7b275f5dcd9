import Richter.Members.CourseAccess

/-! How often a request to join a course is decided, over requests that are served one after
another.  Neither `ReviewJoinRequest` nor its statement looks at the status of the request. -/

namespace Richter.Members

open Lib

/-- The database, and how often each request to join was decided since it was created. -/
structure Ledger where
  db : Db
  decisions : UUID × UUID → Nat

/-- The call creates the request to join, which is pending after it. -/
def Request.creates (req : Request) (db' : Db) (key : UUID × UUID) : Bool :=
  match req.call, req.ctx with
  | .createJoinRequest courseID _, some claims =>
    (courseID, claims.sub) = key &&
      (db'.courseJoinRequests.find key).any fun r => r.status = .pending
  | _, _ => false

/-- The call is a review that changes the request or the membership. -/
def Request.decides (req : Request) (db db' : Db) (key : UUID × UUID) : Bool :=
  match req.call with
  | .reviewJoinRequest courseID userID _ =>
    (courseID, userID) = key &&
      (db'.courseJoinRequests.find key ≠ db.courseJoinRequests.find key ||
        db'.courseMembers.find key ≠ db.courseMembers.find key)
  | _ => false

/-- The service, with the decisions counted. -/
def ledger : Machine Ledger Request where
  step l req := (service.step l.db req).map fun db' =>
    ⟨db', fun key =>
      if req.creates db' key then 0
      else if req.decides l.db db' key then l.decisions key + 1
      else l.decisions key⟩

/-- At the start, a request that is not pending has been decided once. -/
def Ledger.start (db : Db) : Ledger :=
  ⟨db, fun key =>
    if (db.courseJoinRequests.find key).any fun r => r.status ≠ .pending then 1 else 0⟩

/-- `requireCourseManager` lets the caller pass, when no statement fails. -/
def Db.managesCourse (db : Db) (ctx : Option Claims) (courseID : UUID) : Bool :=
  ctx.any fun claims => claims.status = .active && (claims.role = .admin ||
    (db.courses.find courseID).any fun course => course.ownerId = claims.sub ||
      managesOrg (one (db.organizationMembers.find (course.organizationId, claims.sub))) ||
      (db.courseMembers.find (courseID, claims.sub)).any fun m => m.role = .teacher)

/-- The checks of a review let it pass. -/
def Db.mayReview (db : Db) (ctx : Option Claims) (courseID userID : UUID) (approve : Bool) : Bool :=
  db.managesCourse ctx courseID && (!approve ||
    (db.courses.find courseID).any fun course => db.activeMember course.organizationId userID)

/-- A review whose checks let it pass is of a pending request. -/
def reviewsPending (db : Db) (req : Request) : Bool :=
  match req.call with
  | .reviewJoinRequest courseID userID approve =>
    !db.mayReview req.ctx courseID userID approve ||
      (db.courseJoinRequests.find (courseID, userID)).all fun r => r.status = .pending
  | _ => true

section Checks

variable {db : Db} {s : Store Unit} {α : Type} (ctx : Option Claims)

theorem serves_requireCourseManager (h : At db none s) (courseID : UUID) :
    Serves (requireCourseManager ctx courseID)
      (fun _ t => At db none t ∧ db.managesCourse ctx courseID = true) (At db none) s := by
  refine (Prog.meets_bind _).mpr ((meets_requireAuthenticated ctx).mpr
    ⟨fun claims hCtx hActive => ?_, fun _ => h⟩)
  subst hCtx
  split
  · next hAdmin => exact ⟨h, by simp [Db.managesCourse, hActive, hAdmin]⟩
  refine (Prog.meets_bind _).mpr (serves_read rfl h (fun e => by cases e <;> exact h) ?_)
  intro course hCourse
  have hFind : db.courses.find courseID = some course := one_eq_ok.mp hCourse
  dsimp only
  split
  · next hOwner => exact ⟨h, by simp [Db.managesCourse, hActive, hFind, hOwner]⟩
  have hTeacher : Serves (requireTeacher courseID claims)
      (fun _ t => At db none t ∧ db.managesCourse (some claims) courseID = true) (At db none)
      s := by
    refine (Prog.meets_bind _).mpr (serves_read rfl h (fun e => h) fun m hm => ?_)
    have hMember : db.courseMembers.find (courseID, claims.sub) = some m := one_eq_ok.mp hm
    dsimp only
    split
    · next hRole => exact ⟨h, by simp [Db.managesCourse, hActive, hFind, hMember, hRole]⟩
    · exact h
  refine (Prog.meets_bind _).mpr (serves_read rfl h (fun e => hTeacher) fun m hm => ?_)
  have hMember : db.organizationMembers.find (course.organizationId, claims.sub) = some m :=
    one_eq_ok.mp hm
  split
  · next hManages => exact ⟨h, by simp [Db.managesCourse, hActive, hFind, hMember, one, hManages]⟩
  · exact hTeacher

end Checks

/-! What each call does to the requests to join. -/

/-- What a review leaves: nothing, or the decision on a request that was there, after its checks
have passed. -/
def Reviewed (db : Db) (ctx : Option Claims) (courseID userID : UUID) (approve : Bool) (db' : Db) :
    Prop :=
  db' = db ∨ db.mayReview ctx courseID userID approve = true ∧
    ∃ r status, db.courseJoinRequests.find (courseID, userID) = some r ∧ status ≠ .pending ∧
      db'.courseJoinRequests =
        ((Query.reviewJoinRequest courseID userID status).apply db).courseJoinRequests

/-- What a creation leaves: nothing, or a request of the caller that is pending. -/
def Created (db : Db) (ctx : Option Claims) (courseID : UUID) (db' : Db) : Prop :=
  db' = db ∨ ∃ claims role, ctx = some claims ∧
    db' = (Query.createJoinRequest courseID claims.sub role).apply db

section Calls

variable {db : Db} {s : Store Unit} {α : Type} (ctx : Option Claims)

theorem reviewJoinRequest_reviewed (h : At db none s) (courseID userID : UUID) (approve : Bool) :
    Serves (reviewJoinRequest ctx courseID userID approve)
      (fun _ t => Reviewed db ctx courseID userID approve t.committed)
      (fun t => Reviewed db ctx courseID userID approve t.committed) s := by
  have hSame : ∀ {opt} {t : Store Unit}, At db opt t →
      Reviewed db ctx courseID userID approve t.committed := fun ht => .inl ht.1
  unfold reviewJoinRequest
  refine (Prog.meets_bind _).mpr ((serves_requireCourseManager ctx h courseID).mono ?_
    fun _ ht => hSame ht)
  rintro _ t ⟨h, hManages⟩
  cases approve with
  | false =>
    have hMay : db.mayReview ctx courseID userID false = true := by
      simp [Db.mayReview, hManages]
    refine meets_orConnectDBError (serves_withCommitTx (.inl rfl) h fun t h => ?_)
    refine (Prog.meets_bind _).mpr (serves_txWrite rfl h (fun e => h.1) fun reviewed t ha ht => ?_)
    obtain ⟨r, hr, _⟩ := Option.map_eq_some_iff.mp (one_eq_ok.mp ha)
    exact ⟨_, ht, .inr ⟨hMay, r, .rejected, hr, by decide, rfl⟩⟩
  | true =>
    refine serves_requireActiveOrgMember (f := fun _ => orConnectDBError <| withCommitTx do
      let reviewed ← orReturn (← inTx (.reviewJoinRequest courseID userID .approved))
      let _ ← orReturn (← inTx (.addCourseMember ⟨courseID, userID, reviewed.requestedRole⟩)))
      h (fun t ht => hSame ht) fun course t h hCourse hActive => ?_
    have hMay : db.mayReview ctx courseID userID true = true := by
      simp [Db.mayReview, hManages, hCourse, hActive]
    refine meets_orConnectDBError (serves_withCommitTx (.inl rfl) h fun t h => ?_)
    refine (Prog.meets_bind _).mpr (serves_txWrite rfl h (fun e => h.1) fun reviewed t ha ht => ?_)
    obtain ⟨r, hr, _⟩ := Option.map_eq_some_iff.mp (one_eq_ok.mp ha)
    show Serves (do
      let _ ← orReturn (← inTx (.addCourseMember ⟨courseID, userID, reviewed.requestedRole⟩))) _ _ t
    refine (Prog.meets_bind _).mpr (serves_txWrite rfl ht (fun e => ht.1) fun member t _ ht => ?_)
    exact ⟨_, ht, .inr ⟨hMay, r, .approved, hr, by decide, rfl⟩⟩

theorem createJoinRequest_created (h : At db none s) (courseID : UUID) (role : Option CourseRole) :
    Serves (createJoinRequest ctx courseID role) (fun _ t => Created db ctx courseID t.committed)
      (fun t => Created db ctx courseID t.committed) s := by
  have hSame : ∀ {opt} {t : Store Unit}, At db opt t → Created db ctx courseID t.committed :=
    fun ht => .inl ht.1
  unfold createJoinRequest
  refine (Prog.meets_bind _).mpr ((serves_onlyReads (requireCourse_onlyReads courseID) h).mono ?_
    fun _ ht => hSame ht)
  intro course t h
  refine (Prog.meets_bind _).mpr ((serves_requireOrgRole ctx h _ _).mono ?_ fun _ ht => hSame ht)
  rintro claims t ⟨hCtx, -, h⟩
  refine (Prog.meets_bind _).mpr (serves_read rfl h (fun e => hSame h) fun isMember _ => ?_)
  dsimp only
  split
  · exact hSame h
  · refine (Prog.meets_bind _).mpr (serves_write h (fun e => ?_) fun r t _ ht => ?_)
    · exact meets_orConnectDBError ((meets_orReturn _).mpr (hSame h))
    · exact meets_orConnectDBError ((meets_orReturn _).mpr (.inr ⟨claims, _, hCtx, ht.1⟩))

end Calls

/-- The statement does not write requests to join. -/
def Query.leavesRequests : Query → Bool
  | .createJoinRequest .. | .reviewJoinRequest .. => false
  | _ => true

def Op.leavesRequests : Op → Bool
  | .conn q | .tx q => q.leavesRequests
  | .begin | .commit | .rollback => true

abbrev Handler.LeavesRequests {α : Type} (x : Handler α) : Prop :=
  x.run.Performs fun o => o.leavesRequests = true

section Others

variable {α β : Type} {db : Db} {x : Handler α} {q : Query} (ctx : Option Claims)

theorem apply_leavesRequests (hq : q.leavesRequests = true) (db : Db) :
    (q.apply db).courseJoinRequests = db.courseJoinRequests := by
  cases q <;> first | rfl | cases hq

theorem applyAll_leavesRequests {qs : List Query} (hqs : ∀ q ∈ qs, q.leavesRequests = true)
    (db : Db) :
    (TxnStore.applyAll Query.apply qs db).courseJoinRequests = db.courseJoinRequests := by
  induction qs generalizing db with
  | nil => rfl
  | cons q qs ih =>
    rw [List.forall_mem_cons] at hqs
    exact (ih hqs.2 (q.apply db)).trans (apply_leavesRequests hqs.1 db)

/-- A handler whose operations do not write requests to join leaves them as they are. -/
theorem serves_leavesRequests (hx : x.LeavesRequests) :
    Serves x (fun _ t => t.committed.courseJoinRequests = db.courseJoinRequests)
      (fun t => t.committed.courseJoinRequests = db.courseJoinRequests) (.quiet db) := by
  refine Prog.Meets.mono (Prog.Performs.meets (I := fun s : Store Unit =>
    s.committed.courseJoinRequests = db.courseJoinRequests ∧
      ∀ q ∈ (s.pending ()).getD [], q.leavesRequests = true)
    hx (fun _ _ _ _ => trivial) ?_ ⟨rfl, nofun⟩) (fun _ _ => And.left) fun _ => And.left
  rintro o s r t ho ⟨hSame, hPending⟩ ⟨failure, hExec⟩
  cases o with
  | conn q =>
    obtain ⟨rfl, _⟩ | ⟨a, _, _, rfl⟩ := exec_conn hExec
    · exact ⟨hSame, hPending⟩
    · exact ⟨(apply_leavesRequests ho _).trans hSame, hPending⟩
  | tx q =>
    obtain ⟨rfl, _⟩ | ⟨a, _, _, rfl⟩ := exec_tx hExec
    · exact ⟨hSame, hPending⟩
    · split
      · exact ⟨hSame, hPending⟩
      · refine ⟨hSame, ?_⟩
        rw [TxnStore.write_pending, Option.getD_some]
        intro q' hq'
        rcases List.mem_append.mp hq' with hOld | hNew
        · exact hPending q' hOld
        · rw [List.mem_singleton.mp hNew]
          exact ho
  | begin =>
    obtain ⟨rfl, _⟩ | ⟨_, rfl⟩ := exec_begin hExec
    · exact ⟨hSame, hPending⟩
    · refine ⟨hSame, ?_⟩
      rw [TxnStore.begin_pending]
      exact nofun
  | commit =>
    obtain ⟨rfl, _⟩ | ⟨_, rfl⟩ := exec_commit hExec
    · refine ⟨hSame, ?_⟩
      rw [TxnStore.rollback_pending]
      exact nofun
    · refine ⟨?_, ?_⟩
      · rw [TxnStore.commit_committed, TxnStore.view, applyAll_leavesRequests hPending]
        exact hSame
      · rw [TxnStore.commit_pending]
        exact nofun
  | rollback =>
    rw [exec_rollback hExec]
    refine ⟨hSame, ?_⟩
    rw [TxnStore.rollback_pending]
    exact nofun

theorem Handler.OnlyReads.leavesRequests (hx : x.OnlyReads) : x.LeavesRequests := by
  refine hx.mono fun o ho => ?_
  cases o with
  | conn q | tx q => cases q <;> first | rfl | cases ho
  | begin | commit | rollback => rfl

theorem leavesRequests_bind {f : α → Handler β} (hx : x.LeavesRequests)
    (hf : ∀ a, (f a).LeavesRequests) : (x >>= f).LeavesRequests := .exceptT_bind hx hf

theorem leavesRequests_withCommitTx (hx : x.LeavesRequests) : (withCommitTx x).LeavesRequests := by
  refine ⟨rfl, ?_⟩
  rintro (e | _)
  · trivial
  · refine Prog.Performs.bind (p := x.run) hx ?_
    rintro (e | a)
    · exact ⟨rfl, fun _ => trivial⟩
    · refine ⟨rfl, ?_⟩
      rintro (e | _)
      · exact ⟨rfl, fun _ => trivial⟩
      · trivial

theorem leavesRequests_orConnectDBError (hx : x.LeavesRequests) :
    (orConnectDBError x).LeavesRequests := by
  refine Prog.Performs.bind (p := x.run) hx ?_
  rintro (e | a) <;> trivial

theorem leavesRequests_orReturn (r : Except DbError α) : (orReturn r).LeavesRequests := by
  cases r <;> trivial

theorem leavesRequests_inTx (hq : q.leavesRequests = true) :
    Handler.LeavesRequests (do orReturn (← inTx q)) :=
  leavesRequests_bind ⟨hq, fun _ => trivial⟩ fun r => leavesRequests_orReturn r

theorem leavesRequests_withConnection (hq : q.leavesRequests = true) :
    Handler.LeavesRequests (do orConnectDBError (orReturn (← withConnection q))) :=
  leavesRequests_bind ⟨hq, fun _ => trivial⟩
    fun r => leavesRequests_orConnectDBError (leavesRequests_orReturn r)

theorem leavesRequests_discard (hx : x.LeavesRequests) :
    Handler.LeavesRequests (do let _ ← x) := leavesRequests_bind hx fun _ => trivial

theorem addOrganizationMember_leavesRequests (orgID userID : UUID) (role : OrganizationRole)
    (status : MemberStatus) :
    (addOrganizationMember ctx orgID userID role status).LeavesRequests := by
  refine leavesRequests_bind (requireOrgRole_onlyReads ..).leavesRequests fun _ => ?_
  split
  · refine leavesRequests_bind (requireOrgRole_onlyReads ..).leavesRequests fun _ => ?_
    exact leavesRequests_withConnection rfl
  · exact leavesRequests_withConnection rfl

theorem updateOrganizationMemberRole_leavesRequests (orgID userID : UUID)
    (role : OrganizationRole) :
    (updateOrganizationMemberRole ctx orgID userID role).LeavesRequests := by
  refine leavesRequests_orConnectDBError (leavesRequests_withCommitTx ?_)
  refine leavesRequests_bind (currentMember_onlyReads ..).leavesRequests fun current => ?_
  refine leavesRequests_bind (requireOrgRole_onlyReads ..).leavesRequests fun _ => ?_
  split
  · exact leavesRequests_bind (requireAnotherOwner_onlyReads ..).leavesRequests
      fun _ => leavesRequests_inTx rfl
  · exact leavesRequests_inTx rfl

theorem updateOrganizationMemberStatus_leavesRequests (orgID userID : UUID)
    (status : MemberStatus) :
    (updateOrganizationMemberStatus ctx orgID userID status).LeavesRequests := by
  refine leavesRequests_orConnectDBError (leavesRequests_withCommitTx ?_)
  refine leavesRequests_bind (currentMember_onlyReads ..).leavesRequests fun current => ?_
  split
  · refine leavesRequests_bind (requireOrgRole_onlyReads ..).leavesRequests fun _ => ?_
    split
    · exact leavesRequests_bind (requireAnotherOwner_onlyReads ..).leavesRequests
        fun _ => leavesRequests_inTx rfl
    · exact leavesRequests_inTx rfl
  · exact leavesRequests_bind (requireOrgRole_onlyReads ..).leavesRequests
      fun _ => leavesRequests_inTx rfl

theorem removeOrganizationMember_leavesRequests (orgID userID : UUID) :
    (removeOrganizationMember ctx orgID userID).LeavesRequests := by
  have hWrites : (removeWithCourseMemberships orgID userID).LeavesRequests := by
    refine leavesRequests_bind ⟨rfl, fun _ => trivial⟩ ?_
    rintro (e | rows)
    · trivial
    · exact leavesRequests_inTx rfl
  refine leavesRequests_bind (requireMayRemove_onlyReads ..).leavesRequests fun _ => ?_
  refine leavesRequests_bind (leavesRequests_orConnectDBError (leavesRequests_withCommitTx ?_))
    fun rowsAffected => ?_
  · refine leavesRequests_bind (currentMember_onlyReads ..).leavesRequests fun target => ?_
    split
    · exact leavesRequests_bind (requireAnotherOwner_onlyReads ..).leavesRequests fun _ => hWrites
    · exact hWrites
  · split <;> trivial

theorem respondToOrganizationInvitation_leavesRequests (orgID : UUID) (accept : Bool) :
    (respondToOrganizationInvitation ctx orgID accept).LeavesRequests := by
  refine leavesRequests_bind (requireAuthenticated_onlyReads ctx).leavesRequests fun claims => ?_
  refine leavesRequests_orConnectDBError (leavesRequests_withCommitTx ?_)
  refine leavesRequests_bind (currentMember_onlyReads ..).leavesRequests fun current => ?_
  split
  · trivial
  · split
    · exact leavesRequests_bind ⟨rfl, fun _ => trivial⟩
        fun r => leavesRequests_bind (leavesRequests_orReturn r) fun _ => trivial
    · refine leavesRequests_bind ⟨rfl, fun _ => trivial⟩ ?_
      rintro (e | rows) <;> trivial

theorem addCourseMember_leavesRequests (courseID userID : UUID) (role : CourseRole) :
    (addCourseMember ctx courseID userID role).LeavesRequests := by
  refine leavesRequests_bind (requireCourseManager_onlyReads ..).leavesRequests fun _ => ?_
  refine leavesRequests_bind (requireCourse_onlyReads courseID).leavesRequests fun course => ?_
  refine leavesRequests_bind (requireActiveOrgMember_onlyReads ..).leavesRequests fun _ => ?_
  exact leavesRequests_withConnection rfl

theorem removeCourseMember_leavesRequests (courseID userID : UUID) :
    (removeCourseMember ctx courseID userID).LeavesRequests := by
  refine leavesRequests_bind (requireCourseManager_onlyReads ..).leavesRequests fun _ => ?_
  refine leavesRequests_bind (x := ExceptT.lift _) ⟨rfl, fun _ => trivial⟩ fun r => ?_
  refine leavesRequests_bind (leavesRequests_orConnectDBError (leavesRequests_orReturn r))
    fun rowsAffected => ?_
  split <;> trivial

end Others

section Runs

variable {db db' : Db} {req : Request}

/-- What a call other than the two leaves of the requests to join. -/
theorem service_leavesRequests (hStep : service.step db req = some db')
    (hCreate : ∀ courseID role, req.call ≠ .createJoinRequest courseID role)
    (hReview : ∀ courseID userID approve, req.call ≠ .reviewJoinRequest courseID userID approve) :
    db'.courseJoinRequests = db.courseJoinRequests := by
  have hLeaves : (req.call.handler req.ctx).LeavesRequests := by
    cases hCall : req.call with
    | addOrganizationMember =>
      exact leavesRequests_discard (addOrganizationMember_leavesRequests ..)
    | updateOrganizationMemberRole =>
      exact leavesRequests_discard (updateOrganizationMemberRole_leavesRequests ..)
    | updateOrganizationMemberStatus =>
      exact leavesRequests_discard (updateOrganizationMemberStatus_leavesRequests ..)
    | removeOrganizationMember => exact removeOrganizationMember_leavesRequests ..
    | respondToOrganizationInvitation =>
      exact leavesRequests_discard (respondToOrganizationInvitation_leavesRequests ..)
    | addCourseMember => exact leavesRequests_discard (addCourseMember_leavesRequests ..)
    | removeCourseMember => exact removeCourseMember_leavesRequests ..
    | createJoinRequest courseID role => exact absurd hCall (hCreate courseID role)
    | reviewJoinRequest courseID userID approve =>
      exact absurd hCall (hReview courseID userID approve)
  obtain ⟨⟨r, db₁⟩, hServe, rfl⟩ := Option.map_eq_some_iff.mp hStep
  obtain ⟨t, rfl, hQ⟩ := serve_spec (serves_leavesRequests hLeaves) hServe
  cases r <;> exact hQ

theorem service_reviewed {courseID userID : UUID} {approve : Bool}
    (hStep : service.step db req = some db')
    (hCall : req.call = .reviewJoinRequest courseID userID approve) :
    Reviewed db req.ctx courseID userID approve db' := by
  obtain ⟨⟨r, db₁⟩, hServe, rfl⟩ := Option.map_eq_some_iff.mp hStep
  rw [hCall] at hServe
  obtain ⟨t, rfl, hQ⟩ :=
    serve_spec (reviewJoinRequest_reviewed req.ctx ⟨rfl, rfl⟩ courseID userID approve) hServe
  cases r <;> exact hQ

theorem service_created {courseID : UUID} {role : Option CourseRole}
    (hStep : service.step db req = some db') (hCall : req.call = .createJoinRequest courseID role) :
    Created db req.ctx courseID db' := by
  obtain ⟨⟨r, db₁⟩, hServe, rfl⟩ := Option.map_eq_some_iff.mp hStep
  rw [hCall] at hServe
  have hCreated : Serves (Call.handler req.ctx (.createJoinRequest courseID role))
      (fun _ t => Created db req.ctx courseID t.committed)
      (fun t => Created db req.ctx courseID t.committed) (.quiet db) :=
    (createJoinRequest_created req.ctx ⟨rfl, rfl⟩ courseID role).bind
      (fun _ _ => id)
  obtain ⟨t, rfl, hQ⟩ := serve_spec hCreated hServe
  cases r <;> exact hQ

/-- A review of a request that is not pending changes nothing. -/
theorem review_of_decided {courseID userID : UUID} {approve : Bool} {r : CourseJoinRequest}
    (hPending : reviewsPending db req = true) (hStep : service.step db req = some db')
    (hCall : req.call = .reviewJoinRequest courseID userID approve)
    (hr : db.courseJoinRequests.find (courseID, userID) = some r) (hDecided : r.status ≠ .pending) :
    db' = db := by
  obtain hSame | ⟨hMay, _⟩ := service_reviewed hStep hCall
  · exact hSame
  · unfold reviewsPending at hPending
    rw [hCall] at hPending
    simp [hMay, hr, hDecided] at hPending

/-- A request was decided at most once since its creation, and not at all while it is pending. -/
def DecidedOnce (l : Ledger) : Prop :=
  ∀ key, l.decisions key ≤ 1 ∧
    ∀ r, l.db.courseJoinRequests.find key = some r → r.status = .pending → l.decisions key = 0

theorem start_decidedOnce (db : Db) : DecidedOnce (.start db) := by
  intro key
  refine ⟨?_, fun r hr hPending => ?_⟩
  · show (if _ then 1 else 0) ≤ 1
    split <;> omega
  · have hr' : db.courseJoinRequests.find key = some r := hr
    simp [Ledger.start, hr', hPending]

/-- A request that is pending after a call was so before it, unless the call has created it. -/
theorem pending_before {key : UUID × UUID} {r : CourseJoinRequest}
    (hStep : service.step db req = some db') (hCreates : req.creates db' key = false)
    (hr : db'.courseJoinRequests.find key = some r) (hPending : r.status = .pending) :
    db.courseJoinRequests.find key = some r := by
  by_cases hCreate : ∃ courseID role, req.call = .createJoinRequest courseID role
  · obtain ⟨courseID, role, hCall⟩ := hCreate
    obtain rfl | ⟨claims, role', hCtx, rfl⟩ := service_created hStep hCall
    · exact hr
    · have hKey : key ≠ (courseID, claims.sub) := by
        rintro rfl
        simp [Request.creates, hCall, hCtx, hr, hPending] at hCreates
      have hFind := Table.find_upsert (t := db.courseJoinRequests)
        ⟨courseID, claims.sub, .pending, role'⟩ (.setPending role')
        (CourseJoinRequest.setPending_key role') key
      exact (hFind.trans (if_neg hKey)).symm.trans hr
  · by_cases hReview : ∃ courseID userID approve,
        req.call = .reviewJoinRequest courseID userID approve
    · obtain ⟨courseID, userID, approve, hCall⟩ := hReview
      obtain rfl | ⟨_, _, status, _, hStatus, hRequests⟩ := service_reviewed hStep hCall
      · exact hr
      · rw [hRequests] at hr
        simp only [Query.apply, Table.find_update] at hr
        obtain ⟨r₀, hr₀, hNew⟩ := Option.map_eq_some_iff.mp hr
        split at hNew
        · subst hNew
          exact absurd hPending hStatus
        · exact hNew ▸ hr₀
    · push Not at hCreate hReview
      rw [← service_leavesRequests hStep hCreate hReview]
      exact hr

/-- A review that decides a request finds it pending, and leaves it decided. -/
theorem pending_of_decides {key : UUID × UUID} (hPending : reviewsPending db req = true)
    (hStep : service.step db req = some db') (hDecides : req.decides db db' key = true) :
    (∃ r, db.courseJoinRequests.find key = some r ∧ r.status = .pending) ∧
      ∀ r, db'.courseJoinRequests.find key = some r → r.status ≠ .pending := by
  unfold Request.decides at hDecides
  split at hDecides
  · next courseID userID approve hCall =>
    rw [Bool.and_eq_true, decide_eq_true_eq] at hDecides
    obtain ⟨rfl, hChanges⟩ := hDecides
    obtain rfl | ⟨hMay, r, status, hr, hStatus, hRequests⟩ := service_reviewed hStep hCall
    · simp at hChanges
    · have hOld : r.status = .pending := by
        unfold reviewsPending at hPending
        rw [hCall] at hPending
        simpa [hMay, hr] using hPending
      refine ⟨⟨r, hr, hOld⟩, fun r' hr' => ?_⟩
      rw [hRequests] at hr'
      simp only [Query.apply, Table.find_update, hr, Option.map_some, Option.some.injEq] at hr'
      rw [if_pos (decide_eq_true (Table.find_key hr))] at hr'
      rw [← hr']
      exact hStatus
  · cases hDecides

theorem ledger_decidedOnce {l l' : Ledger} (hPending : reviewsPending l.db req = true)
    (hStep : ledger.step l req = some l') (h : DecidedOnce l) : DecidedOnce l' := by
  obtain ⟨db', hService, rfl⟩ := Option.map_eq_some_iff.mp hStep
  intro key
  dsimp only
  split
  · exact ⟨Nat.zero_le 1, fun _ _ _ => rfl⟩
  · next hCreates =>
    replace hCreates : req.creates db' key = false := by simpa using hCreates
    split
    · next hDecides =>
      obtain ⟨⟨r, hr, hOld⟩, hNew⟩ := pending_of_decides hPending hService hDecides
      have hZero : l.decisions key = 0 := (h key).2 r hr hOld
      refine ⟨by omega, fun r' hr' hStatus => ?_⟩
      exact absurd hStatus (hNew r' hr')
    · refine ⟨(h key).1, fun r hr hStatus => ?_⟩
      exact (h key).2 r (pending_before hService hCreates hr hStatus) hStatus

/-- In every run in which no manager reviews a request that is not pending, each created request is
decided at most once, and a review of one that is not pending changes nothing. -/
theorem join_requests_decided_once {reqs : List Request} {l : Ledger}
    (hRun : ledger.Runs (fun l req => reviewsPending l.db req = true) (.start db) reqs l) :
    (∀ key, l.decisions key ≤ 1) ∧
      ∀ req l' courseID userID approve r, reviewsPending l.db req = true →
        ledger.step l req = some l' → req.call = .reviewJoinRequest courseID userID approve →
        l.db.courseJoinRequests.find (courseID, userID) = some r → r.status ≠ .pending →
        l'.db = l.db := by
  have hOnce : DecidedOnce l :=
    hRun.invariant (fun _ _ _ hPending hStep => ledger_decidedOnce hPending hStep)
      (start_decidedOnce db)
  refine ⟨fun key => (hOnce key).1, ?_⟩
  intro req l' courseID userID approve r hPending hStep hCall hr hDecided
  obtain ⟨db', hService, rfl⟩ := Option.map_eq_some_iff.mp hStep
  exact review_of_decided hPending hService hCall hr hDecided

end Runs

def schoolStudent : Option Claims := some ⟨200, .normal, .active⟩

def askToJoin : Request := ⟨schoolStudent, .createJoinRequest 10 none, List.replicate 4 none⟩

def approveStudent : Request :=
  ⟨schoolOwner, .reviewJoinRequest 10 200 true, List.replicate 7 none⟩

def rejectStudent : Request :=
  ⟨schoolOwner, .reviewJoinRequest 10 200 false, List.replicate 4 none⟩

theorem join_requests_decided_once_school :
    ∃ l, ledger.run (.start school) [askToJoin, approveStudent] = some l ∧
      (∀ key, l.decisions key ≤ 1) ∧
      ∀ req l' courseID userID approve r, reviewsPending l.db req = true →
        ledger.step l req = some l' → req.call = .reviewJoinRequest courseID userID approve →
        l.db.courseJoinRequests.find (courseID, userID) = some r → r.status ≠ .pending →
        l'.db = l.db :=
  ⟨_, rfl, @join_requests_decided_once school [askToJoin, approveStudent] _
    (Machine.Runs.of_restrict rfl)⟩

/-- The request is approved and then rejected, and the student stays in the course. -/
theorem late_rejection_leaves_member :
    ¬ ∀ (db : Db) (reqs : List Request) (l : Ledger), ledger.run (.start db) reqs = some l →
      ∀ key, l.decisions key ≤ 1 := by
  intro h
  have hOnce := h school [askToJoin, approveStudent, rejectStudent] _ rfl (10, 200)
  revert hOnce
  decide

end Richter.Members
