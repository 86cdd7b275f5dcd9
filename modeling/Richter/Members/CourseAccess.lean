import Richter.Members.Access
import Richter.Members.CourseMembers
import Richter.Members.OrgMembers

/-! Course access and organization membership, over requests that are served one after another.
Nothing in the database ties a course membership to an organization membership; the handlers keep
the link, all but the change of a membership's status. -/

namespace Richter.Members

open Lib

/-- The requests that change memberships. -/
inductive Call
  | addOrganizationMember (orgID userID : UUID) (role : OrganizationRole) (status : MemberStatus)
  | updateOrganizationMemberRole (orgID userID : UUID) (role : OrganizationRole)
  | updateOrganizationMemberStatus (orgID userID : UUID) (status : MemberStatus)
  | removeOrganizationMember (orgID userID : UUID)
  | respondToOrganizationInvitation (orgID : UUID) (accept : Bool)
  | addCourseMember (courseID userID : UUID) (role : CourseRole)
  | removeCourseMember (courseID userID : UUID)
  | createJoinRequest (courseID : UUID) (role : Option CourseRole)
  | reviewJoinRequest (courseID userID : UUID) (approve : Bool)
  deriving DecidableEq, Repr

def Call.handler (ctx : Option Claims) : Call → Handler Unit
  | .addOrganizationMember orgID userID role status => do
      let _ ← Members.addOrganizationMember ctx orgID userID role status
  | .updateOrganizationMemberRole orgID userID role => do
      let _ ← Members.updateOrganizationMemberRole ctx orgID userID role
  | .updateOrganizationMemberStatus orgID userID status => do
      let _ ← Members.updateOrganizationMemberStatus ctx orgID userID status
  | .removeOrganizationMember orgID userID => Members.removeOrganizationMember ctx orgID userID
  | .respondToOrganizationInvitation orgID accept => do
      let _ ← Members.respondToOrganizationInvitation ctx orgID accept
  | .addCourseMember courseID userID role => do
      let _ ← Members.addCourseMember ctx courseID userID role
  | .removeCourseMember courseID userID => Members.removeCourseMember ctx courseID userID
  | .createJoinRequest courseID role => do
      let _ ← Members.createJoinRequest ctx courseID role
  | .reviewJoinRequest courseID userID approve =>
      Members.reviewJoinRequest ctx courseID userID approve

/-- A request with the claims of its token, and which of its operations fail. -/
structure Request where
  ctx : Option Claims
  call : Call
  failures : List (Option DbError)

/-- A handler's result and the database after it, when nothing else runs. -/
def serve {α : Type} (x : Handler α) (failures : List (Option DbError)) (db : Db) :
    Option (Except Error α × Db) :=
  (x.run.run (exec ()) failures (.quiet db)).map fun (r, s) => (r, s.committed)

def service : Machine Db Request where
  step db req := (serve (req.call.handler req.ctx) req.failures db).map Prod.snd

/-- The user has an active membership in the organization. -/
def Db.activeMember (db : Db) (organizationId userId : UUID) : Bool :=
  (db.organizationMembers.find (organizationId, userId)).any fun m => m.status = .active

/-- Whoever passes `RequireCourseMember` is a system admin, the course's owner, or an active
member of the course's organization. -/
def AccessFollowsMembership (db : Db) : Prop :=
  ∀ ctx courseID failures claims db',
    serve (requireCourseMember ctx courseID) failures db = some (.ok claims, db') →
    claims.role = .admin ∨ ∃ course, db.courses.find courseID = some course ∧
      (course.ownerId = claims.sub ∨ db.activeMember course.organizationId claims.sub = true)

/-- The checks of a status change let it pass. -/
def Db.mayUpdateStatus (db : Db) (ctx : Option Claims) (orgID userID : UUID)
    (status : MemberStatus) : Bool :=
  (db.organizationMembers.find (orgID, userID)).any fun current =>
    ctx.any (fun claims => hasOrgRole db claims orgID
      (if current.role = .owner then [.owner] else [.admin, .owner])) &&
    (!(current.role = .owner && status ≠ .active && current.status = .active) ||
      1 < countOrganizationOwners orgID db)

/-- A status change whose checks let it pass leaves no one with a membership of a course that they
do not own, in an organization in which they are not active. -/
def keepsAccess (db : Db) (req : Request) : Bool :=
  match req.call with
  | .updateOrganizationMemberStatus orgID userID status =>
      !db.mayUpdateStatus req.ctx orgID userID status || status = .active ||
        db.courseMembers.rows.all fun m =>
          !(m.userId = userID && (db.courses.find m.courseId).any
            fun c => c.organizationId = orgID && c.ownerId ≠ userID)
  | _ => true

/-- A member of a course owns it or is an active member of its organization. -/
def Linked (db : Db) : Prop :=
  ∀ courseID userID course m, db.courseMembers.find (courseID, userID) = some m →
    db.courses.find courseID = some course →
    course.ownerId = userID ∨ db.activeMember course.organizationId userID = true

section Linked

variable {db db' : Db}

/-- Fewer course members and more active members keep the link. -/
theorem Linked.mono (h : Linked db) (hCourses : db'.courses = db.courses)
    (hMembers : ∀ k m, db'.courseMembers.find k = some m → ∃ m₁, db.courseMembers.find k = some m₁)
    (hActive : ∀ organizationId userID, db.activeMember organizationId userID = true →
      db'.activeMember organizationId userID = true) : Linked db' := by
  intro courseID userID course m hm hCourse
  obtain ⟨m₁, hm₁⟩ := hMembers _ m hm
  rw [hCourses] at hCourse
  exact (h courseID userID course m₁ hm₁ hCourse).imp_right (hActive _ _)

theorem activeMember_iff {organizationId userID : UUID} :
    db.activeMember organizationId userID = true ↔
      ∃ m, db.organizationMembers.find (organizationId, userID) = some m ∧ m.status = .active := by
  simp [Db.activeMember, Option.any_eq_true]

theorem Linked.addOrganizationMember (h : Linked db) (m : OrganizationMember) :
    Linked ((Query.addOrganizationMember m).apply db) := by
  refine h.mono rfl (fun k m hm => ⟨m, hm⟩) fun organizationId userID hActive => ?_
  rw [activeMember_iff] at hActive ⊢
  obtain ⟨m₁, hm₁, hs⟩ := hActive
  refine ⟨m₁, ?_, hs⟩
  simp only [Query.apply]
  cases hIns : db.organizationMembers.insert m with
  | none => exact hm₁
  | some t =>
    rw [Option.getD_some, Table.find_insert hIns, if_neg, hm₁]
    rintro hk
    rw [hk, Table.find_of_insert hIns] at hm₁
    cases hm₁

theorem Linked.updateOrganizationMemberRole (h : Linked db) (orgID userID : UUID)
    (role : OrganizationRole) :
    Linked ((Query.updateOrganizationMemberRole orgID userID role).apply db) := by
  refine h.mono rfl (fun k m hm => ⟨m, hm⟩) fun organizationId u hActive => ?_
  rw [activeMember_iff] at hActive ⊢
  obtain ⟨m, hm, hs⟩ := hActive
  refine ⟨if m.key = (orgID, userID) then m.setRole role else m, ?_, ?_⟩
  · simp [Query.apply, hm]
  · split <;> exact hs

theorem Linked.activate (h : Linked db) (orgID userID : UUID) :
    Linked ((Query.updateOrganizationMemberStatus orgID userID .active).apply db) := by
  refine h.mono rfl (fun k m hm => ⟨m, hm⟩) fun organizationId u hActive => ?_
  rw [activeMember_iff] at hActive ⊢
  obtain ⟨m, hm, hs⟩ := hActive
  refine ⟨if m.key = (orgID, userID) then m.setStatus .active else m, ?_, ?_⟩
  · simp [Query.apply, hm]
  · split
    · rfl
    · exact hs

theorem Linked.updateOrganizationMemberStatus {req : Request} {orgID userID : UUID}
    {status : MemberStatus} (hCall : req.call = .updateOrganizationMemberStatus orgID userID status)
    (hKeeps : keepsAccess db req = true)
    (hMay : db.mayUpdateStatus req.ctx orgID userID status = true) (h : Linked db) :
    Linked ((Query.updateOrganizationMemberStatus orgID userID status).apply db) := by
  rw [keepsAccess, hCall] at hKeeps
  simp only [hMay, Bool.not_true, Bool.false_or, Bool.or_eq_true, decide_eq_true_eq,
    List.all_eq_true] at hKeeps
  obtain rfl | hNone := hKeeps
  · exact h.activate orgID userID
  · intro courseID u course m hm hCourse
    obtain hOwner | hActive := h courseID u course m hm hCourse
    · exact .inl hOwner
    · by_cases hSame : course.organizationId = orgID ∧ u = userID
      · -- The user is a member of a course of the organization, so it is a course of their own.
        obtain ⟨rfl, rfl⟩ := hSame
        obtain ⟨hMem, hKey⟩ := Table.find_eq_some_iff.mp hm
        have hOwn := hNone m hMem
        simp only [CourseMember.key, Prod.mk.injEq] at hKey
        rw [hKey.1, hKey.2, show db.courses.find courseID = some course from hCourse] at hOwn
        left
        simpa using hOwn
      · right
        rw [activeMember_iff] at hActive ⊢
        obtain ⟨m₁, hm₁, hs⟩ := hActive
        refine ⟨m₁, ?_, hs⟩
        have hKey : m₁.key ≠ (orgID, userID) := by
          rw [Table.find_key hm₁, ne_eq, Prod.mk.injEq]
          exact hSame
        simp [Query.apply, hm₁, hKey]

/-- Removing the membership of someone who is in no course of the organization keeps the link. -/
theorem Linked.removeOrganizationMember {orgID userID : UUID} (h : Linked db)
    (hNone : ∀ courseID course m, db.courseMembers.find (courseID, userID) = some m →
      db.courses.find courseID = some course → course.organizationId = orgID →
      course.ownerId = userID) :
    Linked ((Query.removeOrganizationMember orgID userID).apply db) := by
  intro courseID u course m hm hCourse
  obtain hOwner | hActive := h courseID u course m hm hCourse
  · exact .inl hOwner
  · by_cases hSame : course.organizationId = orgID ∧ u = userID
    · obtain ⟨hOrg, rfl⟩ := hSame
      exact .inl (hNone courseID course m hm hCourse hOrg)
    · right
      rw [activeMember_iff] at hActive ⊢
      obtain ⟨m₁, hm₁, hs⟩ := hActive
      refine ⟨m₁, ?_, hs⟩
      have hKey : m₁.key ≠ (orgID, userID) := by
        rw [Table.find_key hm₁, ne_eq, Prod.mk.injEq]
        exact hSame
      simp [Query.apply, hm₁, hKey]

theorem Linked.delete_courseMembers (h : Linked db) (p : CourseMember → Bool) :
    Linked { db with courseMembers := db.courseMembers.delete p } := by
  refine h.mono rfl (fun k m hm => ?_) fun _ _ => id
  rw [Table.find_delete, Option.filter_eq_some_iff] at hm
  exact ⟨m, hm.1⟩

theorem Linked.addCourseMember {cm : CourseMember} {course : Course} (h : Linked db)
    (hCourse : db.courses.find cm.courseId = some course)
    (hActive : db.activeMember course.organizationId cm.userId = true) :
    Linked ((Query.addCourseMember cm).apply db) := by
  intro courseID userID course₁ m hm hCourse₁
  simp only [Query.apply, Table.find_upsert] at hm
  split at hm
  · next hk =>
    simp only [CourseMember.key, Prod.mk.injEq] at hk
    obtain ⟨rfl, rfl⟩ := hk
    rw [show db.courses.find cm.courseId = some course₁ from hCourse₁, Option.some.injEq]
      at hCourse
    exact .inr (hCourse ▸ hActive)
  · exact h courseID userID course₁ m hm hCourse₁

theorem linked_of_no_members (h : db.courseMembers.rows = []) : Linked db := by
  intro courseID userID course m hm _
  have := (Table.find_eq_some_iff.mp hm).1
  rw [h] at this
  cases this

end Linked

/-! One request at a time: what each operation does when no other transaction is open. -/

/-- The operations of the request that is served. -/
def Alone (o : Op) (s : Store Unit) (r : o.Resp) (t : Store Unit) : Prop :=
  ∃ failure, exec () failure o s = some (r, t)

/-- The committed database, and the writes of the request's transaction if it is open. -/
def At (db : Db) (qs : Option (List Query)) (s : Store Unit) : Prop :=
  s.committed = db ∧ s.pending () = qs

abbrev Serves {α : Type} (x : Handler α) (ok : α → Store Unit → Prop)
    (err : Store Unit → Prop) (s : Store Unit) : Prop :=
  Prog.Meets Alone (fun _ _ => True) x ok err s

section Serves

variable {α : Type} {db : Db} {qs : List Query} {opt : Option (List Query)} {s : Store Unit}
  {q : Query} {err : Store Unit → Prop}

theorem At.view (h : At db (some qs) s) :
    s.view Query.apply () = TxnStore.applyAll Query.apply qs db := by
  rw [TxnStore.view, h.1, h.2, Option.getD_some]

theorem serves_onlyReads {x : Handler α} (hx : x.OnlyReads) (h : At db opt s) :
    Serves x (fun _ => At db opt) (At db opt) s := by
  refine Prog.Performs.meets hx (fun _ _ _ _ => trivial) ?_ h
  rintro o s r t hRead hAt ⟨failure, hExec⟩
  cases o with
  | conn q => exact (exec_conn_read hRead hExec).1 ▸ hAt
  | tx q => exact (exec_tx_read hRead hExec).1 ▸ hAt
  | begin | commit | rollback => cases hRead

theorem serves_read {ok : Except DbError q.Result → Store Unit → Prop} (hq : q.isRead = true)
    (h : At db opt s) (hErr : ∀ e, ok (.error e) s)
    (hOk : ∀ a, q.answer db = .ok a → ok (.ok a) s) : Serves (withConnection q) ok err s := by
  refine ⟨trivial, ?_⟩
  rintro r t ⟨failure, hExec⟩
  obtain ⟨rfl, hr⟩ := exec_conn_read hq hExec
  cases r with
  | error e => exact hErr e
  | ok a => exact hOk a (h.1 ▸ hr a rfl)

theorem serves_txRead {ok : Except DbError q.Result → Store Unit → Prop} (hq : q.isRead = true)
    (h : At db (some qs) s) (hErr : ∀ e, ok (.error e) s)
    (hOk : ∀ a, q.answer (TxnStore.applyAll Query.apply qs db) = .ok a → ok (.ok a) s) :
    Serves (inTx q) ok err s := by
  refine ⟨trivial, ?_⟩
  rintro r t ⟨failure, hExec⟩
  obtain ⟨rfl, hr⟩ := exec_tx_read hq hExec
  cases r with
  | error e => exact hErr e
  | ok a => exact hOk a (h.view ▸ hr a rfl)

theorem serves_write {ok : Except DbError q.Result → Store Unit → Prop} (h : At db none s)
    (hErr : ∀ e, ok (.error e) s)
    (hOk : ∀ a t, q.answer db = .ok a → At (q.apply db) none t → ok (.ok a) t) :
    Serves (withConnection q) ok err s := by
  refine ⟨trivial, ?_⟩
  rintro r t ⟨failure, hExec⟩
  obtain ⟨rfl, e, rfl⟩ | ⟨a, rfl, ha, rfl⟩ := exec_conn hExec
  · exact hErr e
  · exact hOk a _ (h.1 ▸ ha) ⟨by rw [TxnStore.autocommit_committed, h.1], h.2⟩

theorem serves_txWrite {ok : Except DbError q.Result → Store Unit → Prop}
    (hq : q.isRead = false) (h : At db (some qs) s) (hErr : ∀ e, ok (.error e) s)
    (hOk : ∀ a t, q.answer (TxnStore.applyAll Query.apply qs db) = .ok a →
      At db (some (qs ++ [q])) t → ok (.ok a) t) : Serves (inTx q) ok err s := by
  refine ⟨trivial, ?_⟩
  rintro r t ⟨failure, hExec⟩
  obtain ⟨rfl, e, rfl⟩ | ⟨a, rfl, ha, rfl⟩ := exec_tx hExec
  · exact hErr e
  · rw [hq, if_neg Bool.false_ne_true]
    refine hOk a _ (h.view ▸ ha) ⟨h.1, ?_⟩
    rw [TxnStore.write_pending, h.2, Option.getD_some]

/-- A transaction whose body leaves writes that keep `I` keeps `I`. -/
theorem serves_withCommitTx {I : Db → Prop} {f : Handler α} (hI : I db) (h : At db none s)
    (hBody : ∀ t, At db (some []) t → Serves f
      (fun _ u => ∃ qs, At db (some qs) u ∧ I (TxnStore.applyAll Query.apply qs db))
      (fun u => u.committed = db) t) :
    Serves (withCommitTx f) (fun _ t => I t.committed) (fun t => I t.committed) s := by
  refine meets_withCommitTx trivial ?_ ?_
  · rintro e t ⟨failure, hExec⟩
    obtain ⟨rfl, _⟩ | ⟨hOk, _⟩ := exec_begin hExec
    · exact h.1 ▸ hI
    · cases hOk
  · rintro t ⟨failure, hExec⟩
    obtain ⟨_, e, hErr⟩ | ⟨_, rfl⟩ := exec_begin hExec
    · cases hErr
    · refine (hBody (s.begin ()) ⟨h.1, TxnStore.begin_pending ..⟩).mono ?_ ?_
      · rintro a u ⟨qs, hAt, hInv⟩
        refine ⟨trivial, ?_, ?_⟩
        · rintro v ⟨failure, hExec⟩
          obtain ⟨_, e, hErr⟩ | ⟨_, rfl⟩ := exec_commit hExec
          · cases hErr
          · rw [TxnStore.commit_committed, hAt.view]
            exact hInv
        · rintro e v ⟨failure, hExec⟩
          obtain ⟨rfl, _⟩ | ⟨hOk, _⟩ := exec_commit hExec
          · refine ⟨trivial, ?_⟩
            rintro w ⟨failure, hExec⟩
            rw [exec_rollback hExec, TxnStore.rollback_committed, TxnStore.rollback_committed,
              hAt.1]
            exact hI
          · cases hOk
      · rintro u hCommitted
        refine ⟨trivial, ?_⟩
        rintro v ⟨failure, hExec⟩
        rw [exec_rollback hExec, TxnStore.rollback_committed, hCommitted]
        exact hI

theorem serves_currentMember {orgID userID : UUID} {missing : String} (h : At db (some []) s) :
    Serves (currentMember orgID userID missing)
      (fun m t => db.organizationMembers.find (orgID, userID) = some m ∧ At db (some []) t)
      (fun t => t.committed = db) s := by
  refine (Prog.meets_bind _).mpr (serves_txRead rfl h ?_ ?_)
  · intro e
    cases e <;> exact h.1
  · intro m hm
    exact ⟨one_eq_ok.mp hm, h⟩

theorem serves_requireAnotherOwner {orgID : UUID} {refusal : String} (h : At db (some []) s) :
    Serves (requireAnotherOwner orgID refusal)
      (fun _ t => 1 < countOrganizationOwners orgID db ∧ At db (some []) t)
      (fun t => t.committed = db) s := by
  refine (Prog.meets_bind _).mpr (serves_txRead rfl h (fun e => h.1) fun n hn => ?_)
  obtain rfl : countOrganizationOwners orgID db = n := Except.ok.inj hn
  dsimp only
  split
  · exact h.1
  · next hMany => exact ⟨not_le.mp hMany, h⟩

/-- Who passes has a role in the organization. -/
theorem serves_requireOrgRole (ctx : Option Claims) (h : At db opt s) (orgID : UUID)
    (roles : List OrganizationRole) :
    Serves (requireOrgRole ctx orgID roles)
      (fun claims t => ctx = some claims ∧ hasOrgRole db claims orgID roles = true ∧ At db opt t)
      (At db opt) s := by
  refine (Prog.meets_bind _).mpr ((meets_requireAuthenticated ctx).mpr
    ⟨fun claims hCtx hActive => ?_, fun _ => h⟩)
  split
  · next hAdmin => exact ⟨hCtx, by simp [hasOrgRole, hActive, hAdmin], h⟩
  · refine (Prog.meets_bind _).mpr (serves_read rfl h (fun e => by cases e <;> exact h) ?_)
    intro member hMember
    have hFind : db.organizationMembers.find (orgID, claims.sub) = some member :=
      one_eq_ok.mp hMember
    dsimp only
    split
    · exact h
    · next hStatus =>
      split
      · next hRole =>
        have hMember : member.status = .active := not_not.mp hStatus
        exact ⟨hCtx, by simp [hasOrgRole, hActive, hFind, hMember, hRole], h⟩
      · exact h

end Serves

/-! The handlers keep the link. -/

abbrev KeepsLink {α : Type} (x : Handler α) (s : Store Unit) : Prop :=
  Serves x (fun _ t => Linked t.committed) (fun t => Linked t.committed) s

section Handlers

variable {α : Type} {db : Db} {s : Store Unit} (ctx : Option Claims)

theorem At.linked {opt : Option (List Query)} (h : At db opt s) (hLinked : Linked db) :
    Linked s.committed := h.1 ▸ hLinked

/-- Reads come first. -/
theorem keepsLink_bind {β : Type} {x : Handler α} {f : α → Handler β} (hx : x.OnlyReads)
    (h : At db none s) (hLinked : Linked db) (hf : ∀ a t, At db none t → KeepsLink (f a) t) :
    KeepsLink (x >>= f) s :=
  (Prog.meets_bind f).mpr ((serves_onlyReads hx h).mono hf fun _ ht => ht.linked hLinked)

/-- One write on a connection of its own. -/
theorem keepsLink_write {q : Query} (h : At db none s) (hLinked : Linked db)
    (hWrite : ∀ a, q.answer db = .ok a → Linked (q.apply db)) :
    KeepsLink (do orConnectDBError (orReturn (← withConnection q))) s := by
  refine (Prog.meets_bind _).mpr (serves_write h ?_ ?_)
  · intro e
    exact meets_orConnectDBError ((meets_orReturn _).mpr (h.linked hLinked))
  · intro a t ha ht
    exact meets_orConnectDBError ((meets_orReturn _).mpr (ht.linked (hWrite a ha)))

/-- One write in a transaction, as the last step of its body. -/
theorem serves_lastWrite {q : Query} {I : Db → Prop} {qs : List Query} (hq : q.isRead = false)
    (h : At db (some qs) s) (hI : I (q.apply (TxnStore.applyAll Query.apply qs db))) :
    Serves (do orReturn (← inTx q))
      (fun _ u => ∃ qs, At db (some qs) u ∧ I (TxnStore.applyAll Query.apply qs db))
      (fun u => u.committed = db) s := by
  refine (Prog.meets_bind _).mpr (serves_txWrite hq h ?_ ?_)
  · exact fun e => (meets_orReturn _).mpr h.1
  · intro a t _ ht
    refine (meets_orReturn _).mpr ⟨qs ++ [q], ht, ?_⟩
    rw [TxnStore.applyAll, List.foldl_append]
    exact hI

/-- Reads within a transaction's body. -/
theorem serves_txReads_bind {β : Type} {x : Handler α} {f : α → Handler β} {qs : List Query}
    {ok : β → Store Unit → Prop} (hx : x.OnlyReads) (h : At db (some qs) s)
    (hf : ∀ a t, At db (some qs) t → Serves (f a) ok (fun u => u.committed = db) t) :
    Serves (x >>= f) ok (fun u => u.committed = db) s :=
  (Prog.meets_bind f).mpr ((serves_onlyReads hx h).mono hf fun _ ht => ht.1)

theorem addOrganizationMember_keepsLink (h : At db none s) (hLinked : Linked db)
    (orgID userID : UUID) (role : OrganizationRole) (status : MemberStatus) :
    KeepsLink (addOrganizationMember ctx orgID userID role status) s := by
  refine keepsLink_bind (requireOrgRole_onlyReads ..) h hLinked fun _ t h => ?_
  split
  · refine keepsLink_bind (requireOrgRole_onlyReads ..) h hLinked fun _ t h => ?_
    exact keepsLink_write h hLinked fun _ _ => hLinked.addOrganizationMember _
  · exact keepsLink_write h hLinked fun _ _ => hLinked.addOrganizationMember _

theorem updateOrganizationMemberRole_keepsLink (h : At db none s) (hLinked : Linked db)
    (orgID userID : UUID) (role : OrganizationRole) :
    KeepsLink (updateOrganizationMemberRole ctx orgID userID role) s := by
  have hWrite : ∀ t, At db (some []) t → Serves
      (do orReturn (← inTx (.updateOrganizationMemberRole orgID userID role)))
      (fun _ u => ∃ qs, At db (some qs) u ∧ Linked (TxnStore.applyAll Query.apply qs db))
      (fun u => u.committed = db) t :=
    fun t ht => serves_lastWrite rfl ht (hLinked.updateOrganizationMemberRole orgID userID role)
  refine meets_orConnectDBError (serves_withCommitTx hLinked h fun t h => ?_)
  refine serves_txReads_bind (currentMember_onlyReads ..) h fun current t h => ?_
  refine serves_txReads_bind (requireOrgRole_onlyReads ..) h fun _ t h => ?_
  split
  · exact serves_txReads_bind (requireAnotherOwner_onlyReads ..) h fun _ => hWrite
  · exact hWrite t h

theorem updateOrganizationMemberStatus_keepsLink (h : At db none s) (hLinked : Linked db)
    (orgID userID : UUID) (status : MemberStatus)
    (hStatus : db.mayUpdateStatus ctx orgID userID status = true →
      Linked ((Query.updateOrganizationMemberStatus orgID userID status).apply db)) :
    KeepsLink (updateOrganizationMemberStatus ctx orgID userID status) s := by
  have hWrite : db.mayUpdateStatus ctx orgID userID status = true → ∀ t, At db (some []) t → Serves
      (do orReturn (← inTx (.updateOrganizationMemberStatus orgID userID status)))
      (fun _ u => ∃ qs, At db (some qs) u ∧ Linked (TxnStore.applyAll Query.apply qs db))
      (fun u => u.committed = db) t :=
    fun hMay t ht => serves_lastWrite rfl ht (hStatus hMay)
  refine meets_orConnectDBError (serves_withCommitTx hLinked h fun t h => ?_)
  refine (serves_currentMember h).bind ?_
  rintro current t ⟨hCurrent, h⟩
  split
  · next hOwner =>
    refine (Prog.meets_bind _).mpr ((serves_requireOrgRole ctx h _ _).mono ?_ fun _ ht => ht.1)
    rintro claims t ⟨hCtx, hRole, h⟩
    split
    · refine (serves_requireAnotherOwner h).bind ?_
      rintro - t ⟨hMany, h⟩
      exact hWrite (by simp [Db.mayUpdateStatus, hCurrent, hOwner, hCtx, hRole, hMany]) t h
    · next hKept =>
      have hSafe : status = .active ∨ ¬current.status = .active :=
        Decidable.or_iff_not_imp_left.mpr fun hStatus hActive => hKept ⟨hStatus, hActive⟩
      exact hWrite (by simp [Db.mayUpdateStatus, hCurrent, hOwner, hCtx, hRole, hSafe]) t h
  · next hOther =>
    refine (Prog.meets_bind _).mpr ((serves_requireOrgRole ctx h _ _).mono ?_ fun _ ht => ht.1)
    rintro claims t ⟨hCtx, hRole, h⟩
    exact hWrite (by simp [Db.mayUpdateStatus, hCurrent, hOther, hCtx, hRole]) t h

theorem removeOrganizationMember_keepsLink (h : At db none s) (hLinked : Linked db)
    (orgID userID : UUID) : KeepsLink (removeOrganizationMember ctx orgID userID) s := by
  -- The cascade leaves the user in no course of the organization.
  have hWrites : ∀ t, At db (some []) t → Serves (removeWithCourseMemberships orgID userID)
      (fun _ u => ∃ qs, At db (some qs) u ∧ Linked (TxnStore.applyAll Query.apply qs db))
      (fun u => u.committed = db) t := by
    intro t ht
    refine (Prog.meets_bind _).mpr (serves_txWrite rfl ht (fun e => ht.1) fun a t _ ht => ?_)
    refine serves_lastWrite rfl ht ?_
    refine (hLinked.delete_courseMembers _).removeOrganizationMember
      fun courseID course m hm hc ho => ?_
    rw [Table.find_delete, Option.filter_eq_some_iff] at hm
    have hKey := Table.find_key hm.1
    simp only [CourseMember.key, Prod.mk.injEq] at hKey
    have hc' : db.courses.find courseID = some course := hc
    simp [Db.courseIn, hKey.1, hKey.2, hc', ho] at hm
  refine keepsLink_bind (requireMayRemove_onlyReads ..) h hLinked fun _ t h => ?_
  refine (meets_orConnectDBError (serves_withCommitTx hLinked h fun t h => ?_)).bind ?_
  · refine serves_txReads_bind (currentMember_onlyReads ..) h fun target t h => ?_
    split
    · exact serves_txReads_bind (requireAnotherOwner_onlyReads ..) h fun _ => hWrites
    · exact hWrites t h
  · intro rowsAffected t ht
    split <;> exact ht

theorem respondToOrganizationInvitation_keepsLink (h : At db none s) (hLinked : Linked db)
    (orgID : UUID) (accept : Bool) :
    KeepsLink (respondToOrganizationInvitation ctx orgID accept) s := by
  refine keepsLink_bind (requireAuthenticated_onlyReads ctx) h hLinked fun claims t h => ?_
  refine meets_orConnectDBError (serves_withCommitTx hLinked h fun t h => ?_)
  refine (serves_currentMember h).bind ?_
  rintro current t ⟨hCurrent, h⟩
  split
  · exact h.1
  · next hInvited =>
    split
    · refine (Prog.meets_bind _).mpr (serves_txWrite rfl h (fun e => h.1) fun a t _ ht => ?_)
      exact ⟨_, ht, hLinked.activate orgID claims.sub⟩
    · refine (Prog.meets_bind _).mpr (serves_txWrite rfl h (fun e => h.1) fun a t _ ht => ?_)
      refine ⟨_, ht, hLinked.removeOrganizationMember fun courseID course m hm hc ho => ?_⟩
      -- An invited user is not an active member, so the course is the user's own.
      refine (hLinked courseID claims.sub course m hm hc).resolve_right fun hActive => ?_
      obtain ⟨m₁, hm₁, hs⟩ := activeMember_iff.mp hActive
      rw [ho, hCurrent, Option.some.injEq] at hm₁
      rw [hm₁, hs] at hInvited
      exact hInvited nofun

/-- What the checks on the new member of a course find out. -/
theorem serves_requireActiveOrgMember {courseID userID : UUID} {missing inactive : String}
    {f : Unit → Handler α} {ok : α → Store Unit → Prop} {err : Store Unit → Prop}
    (h : At db none s) (hErr : ∀ t, At db none t → err t)
    (hf : ∀ course t, At db none t → db.courses.find courseID = some course →
      db.activeMember course.organizationId userID = true → Serves (f ()) ok err t) :
    Serves (do
      let course ← requireCourse courseID
      requireActiveOrgMember course.organizationId userID missing inactive
      f ()) ok err s := by
  refine (Prog.meets_bind _).mpr ((Prog.meets_bind _).mpr (serves_read rfl h ?_ ?_))
  · intro e
    cases e <;> exact hErr s h
  · intro course hCourse
    have hFind : db.courses.find courseID = some course := one_eq_ok.mp hCourse
    refine (Prog.meets_bind _).mpr ((Prog.meets_bind _).mpr (serves_read rfl h ?_ ?_))
    · intro e
      cases e <;> exact hErr s h
    · intro m hm
      simp only
      split
      · exact hErr s h
      · next hs =>
        exact hf course s h hFind
          (activeMember_iff.mpr ⟨m, one_eq_ok.mp hm, not_ne_iff.mp hs⟩)

theorem addCourseMember_keepsLink (h : At db none s) (hLinked : Linked db)
    (courseID userID : UUID) (role : CourseRole) :
    KeepsLink (addCourseMember ctx courseID userID role) s := by
  refine keepsLink_bind (requireCourseManager_onlyReads ..) h hLinked fun _ t h => ?_
  refine serves_requireActiveOrgMember (f := fun _ => do
    orConnectDBError (orReturn (← withConnection (.addCourseMember ⟨courseID, userID, role⟩))))
    h (fun t ht => ht.linked hLinked) fun course t h hCourse hActive => ?_
  exact keepsLink_write h hLinked fun _ _ => hLinked.addCourseMember hCourse hActive

theorem removeCourseMember_keepsLink (h : At db none s) (hLinked : Linked db)
    (courseID userID : UUID) : KeepsLink (removeCourseMember ctx courseID userID) s := by
  refine keepsLink_bind (requireCourseManager_onlyReads ..) h hLinked fun _ t h => ?_
  have hWrite : KeepsLink (do
      orConnectDBError (orReturn (← withConnection (.removeCourseMember courseID userID)))) t :=
    keepsLink_write h hLinked fun _ _ => hLinked.delete_courseMembers _
  refine ((Prog.meets_bind _).mp hWrite).bind ?_
  intro r t ht
  refine ht.bind ?_
  intro rowsAffected t ht
  split <;> exact ht

theorem createJoinRequest_keepsLink (h : At db none s) (hLinked : Linked db)
    (courseID : UUID) (role : Option CourseRole) :
    KeepsLink (createJoinRequest ctx courseID role) s := by
  refine keepsLink_bind (requireCourse_onlyReads courseID) h hLinked fun course t h => ?_
  refine keepsLink_bind (requireOrgRole_onlyReads ..) h hLinked fun claims t h => ?_
  refine keepsLink_bind (withConnection_onlyReads rfl) h hLinked fun isMember t h => ?_
  split
  · exact h.linked hLinked
  · split
    · exact h.linked hLinked
    · exact keepsLink_write h hLinked fun _ _ => hLinked.mono rfl (fun _ m hm => ⟨m, hm⟩)
        fun _ _ => id

theorem reviewJoinRequest_keepsLink (h : At db none s) (hLinked : Linked db)
    (courseID userID : UUID) (approve : Bool) :
    KeepsLink (reviewJoinRequest ctx courseID userID approve) s := by
  refine keepsLink_bind (requireCourseManager_onlyReads ..) h hLinked fun _ t h => ?_
  -- The request itself says nothing about memberships.
  have hReviewed : Linked ((Query.reviewJoinRequest courseID userID
      (if approve then .approved else .rejected)).apply db) :=
    hLinked.mono rfl (fun _ m hm => ⟨m, hm⟩) fun _ _ => id
  cases approve with
  | false =>
    refine meets_orConnectDBError (serves_withCommitTx hLinked h fun t h => ?_)
    refine (Prog.meets_bind _).mpr (serves_txWrite rfl h (fun e => h.1) fun reviewed t _ h => ?_)
    exact ⟨_, h, hReviewed⟩
  | true =>
    refine serves_requireActiveOrgMember (f := fun _ => orConnectDBError <| withCommitTx do
      let reviewed ← orReturn (← inTx (.reviewJoinRequest courseID userID .approved))
      let _ ← orReturn (← inTx (.addCourseMember ⟨courseID, userID, reviewed.requestedRole⟩)))
      h (fun t ht => ht.linked hLinked) fun course t h hCourse hActive => ?_
    have hAdd : ∀ role t, At db (some [.reviewJoinRequest courseID userID .approved]) t → Serves
        (do let _ ← orReturn (← inTx (.addCourseMember ⟨courseID, userID, role⟩)))
        (fun _ u => ∃ qs, At db (some qs) u ∧ Linked (TxnStore.applyAll Query.apply qs db))
        (fun u => u.committed = db) t := by
      intro role t h
      refine (Prog.meets_bind _).mpr (serves_txWrite rfl h (fun e => h.1) fun member t _ h => ?_)
      exact ⟨_, h, hReviewed.addCourseMember hCourse hActive⟩
    refine meets_orConnectDBError (serves_withCommitTx hLinked h fun t h => ?_)
    refine (Prog.meets_bind _).mpr (serves_txWrite rfl h (fun e => h.1) fun reviewed t _ h => ?_)
    exact hAdd reviewed.requestedRole t h

theorem keepsLink_discard {x : Handler α} (h : KeepsLink x s) :
    KeepsLink (do let _ ← x) s :=
  h.bind (fun _ _ => id)

theorem Call.keepsLink {req : Request} (h : At db none s) (hLinked : Linked db)
    (hKeeps : keepsAccess db req = true) : KeepsLink (req.call.handler req.ctx) s := by
  cases hCall : req.call with
  | addOrganizationMember =>
    exact keepsLink_discard (addOrganizationMember_keepsLink _ h hLinked ..)
  | updateOrganizationMemberRole =>
    exact keepsLink_discard (updateOrganizationMemberRole_keepsLink _ h hLinked ..)
  | updateOrganizationMemberStatus orgID userID status =>
    exact keepsLink_discard (updateOrganizationMemberStatus_keepsLink _ h hLinked _ _ _
      fun hMay => hLinked.updateOrganizationMemberStatus hCall hKeeps hMay)
  | removeOrganizationMember => exact removeOrganizationMember_keepsLink _ h hLinked ..
  | respondToOrganizationInvitation =>
    exact keepsLink_discard (respondToOrganizationInvitation_keepsLink _ h hLinked ..)
  | addCourseMember => exact keepsLink_discard (addCourseMember_keepsLink _ h hLinked ..)
  | removeCourseMember => exact removeCourseMember_keepsLink _ h hLinked ..
  | createJoinRequest => exact keepsLink_discard (createJoinRequest_keepsLink _ h hLinked ..)
  | reviewJoinRequest => exact reviewJoinRequest_keepsLink _ h hLinked ..

end Handlers

/-- What a handler ensures, its service ensures. -/
theorem serve_spec {α : Type} {x : Handler α} {ok : α → Store Unit → Prop}
    {err : Store Unit → Prop} {failures : List (Option DbError)} {db db' : Db}
    {r : Except Error α} (hx : Serves x ok err (.quiet db))
    (h : serve x failures db = some (r, db')) :
    ∃ t, t.committed = db' ∧
      match r with
      | .ok a => ok a t
      | .error _ => err t := by
  obtain ⟨⟨r', t⟩, hRun, hEq⟩ := Option.map_eq_some_iff.mp h
  cases hEq
  have hQ := Prog.Ensures.of_run (fun w _ _ _ _ _ hExec => ⟨w, hExec⟩) hx hRun
  refine ⟨t, rfl, ?_⟩
  cases r <;> exact hQ

theorem service_linked {db db' : Db} {req : Request} (hStep : service.step db req = some db')
    (hKeeps : keepsAccess db req = true) (h : Linked db) : Linked db' := by
  obtain ⟨⟨r, db₁⟩, hServe, rfl⟩ := Option.map_eq_some_iff.mp hStep
  obtain ⟨t, rfl, hQ⟩ := serve_spec (Call.keepsLink ⟨rfl, rfl⟩ h hKeeps) hServe
  cases r <;> exact hQ

/-- The last check of `RequireCourseMember`. -/
theorem courseMember_passes {db : Db} {s : Store Unit} (h : Linked db) (hAt : At db none s)
    {courseID : UUID} {course : Course} (hCourse : db.courses.find courseID = some course)
    (claims : Claims) :
    Serves (do
      match ← withConnection (.isCourseMember courseID claims.sub) with
      | .error _ => throw (.connect .internal "internal error")
      | .ok isMember =>
        if isMember then return claims
        else throw (.connect .permissionDenied "not a member of this course"))
      (fun claims _ => claims.role = .admin ∨ ∃ course, db.courses.find courseID = some course ∧
        (course.ownerId = claims.sub ∨ db.activeMember course.organizationId claims.sub = true))
      (fun _ => True) s := by
  refine (Prog.meets_bind _).mpr (serves_read rfl hAt (fun e => trivial) fun isMember hMember => ?_)
  simp only
  split
  · next hIs =>
    simp only [Query.answer, Except.ok.injEq] at hMember
    rw [hIs, Option.isSome_iff_exists] at hMember
    obtain ⟨m, hm⟩ := hMember
    exact .inr ⟨course, hCourse, h courseID claims.sub course m hm hCourse⟩
  · trivial

theorem managesOrg_ok {m : OrganizationMember} (h : managesOrg (.ok m) = true) :
    m.status = .active := by
  simp only [managesOrg, Bool.and_eq_true, decide_eq_true_eq] at h
  exact h.1

theorem Linked.accessFollowsMembership {db : Db} (h : Linked db) : AccessFollowsMembership db := by
  intro ctx courseID failures claims db' hServe
  have hAt : At db none (.quiet db : Store Unit) := ⟨rfl, rfl⟩
  have hSpec : Serves (requireCourseMember ctx courseID)
      (fun claims _ => claims.role = .admin ∨ ∃ course, db.courses.find courseID = some course ∧
        (course.ownerId = claims.sub ∨ db.activeMember course.organizationId claims.sub = true))
      (fun _ => True) (.quiet db) := by
    refine (Prog.meets_bind _).mpr ((meets_requireAuthenticated ctx).mpr
      ⟨fun claims _ _ => ?_, fun _ => trivial⟩)
    split
    · next hAdmin => exact .inl hAdmin
    refine (Prog.meets_bind _).mpr (serves_read rfl hAt (fun e => by cases e <;> trivial) ?_)
    intro course hCourse
    have hFind : db.courses.find courseID = some course := one_eq_ok.mp hCourse
    simp only
    split
    · next hOwner => exact .inr ⟨course, hFind, .inl hOwner⟩
    refine (Prog.meets_bind _).mpr (serves_read rfl hAt (fun e => ?_) fun m hm => ?_)
    · exact courseMember_passes h hAt hFind claims
    · split
      · next hManages =>
        exact .inr ⟨course, hFind,
          .inr (activeMember_iff.mpr ⟨m, one_eq_ok.mp hm, managesOrg_ok hManages⟩)⟩
      · exact courseMember_passes h hAt hFind claims
  obtain ⟨t, _, hQ⟩ := serve_spec hSpec hServe
  exact hQ

/-- From a database whose courses have no members yet, in every run of requests none of which passes
its checks and ends the active membership of someone who is in a course of the organization that
they do not own, course access follows organization membership. -/
theorem access_follows_membership {db₀ db : Db} {reqs : List Request}
    (hStart : db₀.courseMembers.rows = [])
    (hRun : service.Runs (fun db req => keepsAccess db req = true) db₀ reqs db) :
    AccessFollowsMembership db :=
  (hRun.invariant (fun _ _ _ hKeeps hStep => service_linked hStep hKeeps)
    (linked_of_no_members hStart)).accessFollowsMembership

/-- An organization with an owner, a student and a course of the owner's. -/
def school : Db where
  organizationMembers := .ofList [⟨1, 100, .owner, .active⟩, ⟨1, 200, .student, .active⟩]
  courses := .ofList [⟨10, 1, 100⟩]
  courseMembers := .empty
  courseJoinRequests := .empty

def schoolOwner : Option Claims := some ⟨100, .normal, .active⟩

def enrol : Request := ⟨schoolOwner, .addCourseMember 10 200 .student, List.replicate 4 none⟩

def remove : Request := ⟨schoolOwner, .removeOrganizationMember 1 200, List.replicate 6 none⟩

def suspend : Request :=
  ⟨schoolOwner, .updateOrganizationMemberStatus 1 200 .suspended, List.replicate 5 none⟩

/-- The student may not change a status. -/
def refused : Request :=
  ⟨some ⟨200, .normal, .active⟩, .updateOrganizationMemberStatus 1 200 .suspended,
    List.replicate 4 none⟩

theorem access_follows_membership_school : ∃ db,
    service.run school [enrol, refused, remove] = some db ∧ AccessFollowsMembership db :=
  ⟨_, rfl, @access_follows_membership school _ [enrol, refused, remove] rfl
    (Machine.Runs.of_restrict rfl)⟩

/-- The student is enrolled and then suspended, and still passes `RequireCourseMember`. -/
theorem suspended_member_keeps_access :
    ¬ ∀ (db₀ db : Db) (reqs : List Request), db₀.courseMembers.rows = [] →
      service.run db₀ reqs = some db → AccessFollowsMembership db := by
  intro h
  obtain hAdmin | ⟨course, hCourse, hMember⟩ := h school _ [enrol, suspend] rfl rfl
    (some ⟨200, .normal, .active⟩) 10 (List.replicate 3 none) ⟨200, .normal, .active⟩ _ rfl
  · cases hAdmin
  · cases hCourse
    revert hMember
    decide

end Richter.Members
