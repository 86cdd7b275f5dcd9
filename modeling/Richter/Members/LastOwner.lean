import Richter.Members.OrgMembers

/-! The last active owner of an organization, while any number of requests that change memberships
run side by side.  Each reads the row and counts the owners in its transaction, and at READ
COMMITTED nothing keeps what it has read as it was until the commit. -/

namespace Richter.Members

open Lib

/-- The requests that can take an owner out of an organization. -/
inductive MemberChange
  | role (orgID userID : UUID) (newRole : OrganizationRole)
  | status (orgID userID : UUID) (newStatus : MemberStatus)
  | remove (orgID userID : UUID)
  deriving DecidableEq, Repr

def MemberChange.handler (ctx : Option Claims) : MemberChange → Handler Unit
  | .role orgID userID newRole => do
      let _ ← updateOrganizationMemberRole ctx orgID userID newRole
  | .status orgID userID newStatus => do
      let _ ← updateOrganizationMemberStatus ctx orgID userID newStatus
  | .remove orgID userID => removeOrganizationMember ctx orgID userID

abbrev History := List (Prog.Event Op Op.Resp)

/-- Requests that are served side by side, by their numbers. -/
abbrev Requests := Pool Nat (Store Nat) Op Op.Resp (Except Error Unit)

def Requests.start (db : Db) (request : Nat → Option Claims × MemberChange) : Requests :=
  Pool.start (.quiet db) fun i => ((request i).2.handler (request i).1).run

/-- The scheduler lets a request take its next step, which the environment may let fail. -/
def requests : Machine Requests (Nat × Option DbError) := Pool.machine exec

/-- The key is that of an active owner. -/
def Db.ownerAt (db : Db) (key : UUID × UUID) : Bool :=
  (db.organizationMembers.find key).any (·.activeOwner)

/-- The organization has a member with role owner and status active. -/
def Db.hasOwner (db : Db) (orgID : UUID) : Bool :=
  db.organizationMembers.rows.any fun m => m.organizationId = orgID && m.activeOwner

/-- What a transaction has read for its guard still lets the guard pass: a row that was not an
active owner's is none now, and there are no fewer active owners than were counted. -/
def stillHolds (db : Db) : Prog.Event Op Op.Resp → Bool
  | ⟨.tx (.getOrganizationMember orgID userID), .ok m⟩ =>
      m.activeOwner || !db.ownerAt (orgID, userID)
  | ⟨.tx (.countOrganizationOwners orgID), .ok n⟩ => n ≤ countOrganizationOwners orgID db
  | _ => true

/-- Whether a request that is about to commit may still rely on what its transaction has read. -/
def readsStillHold (p : Requests) (a : Nat × Option DbError) : Bool :=
  p.next a.1 ≠ some .commit || (p.hist a.1).all (stillHolds p.store.committed)

section Owners

variable {db : Db} {key : UUID × UUID} {orgID : UUID}

theorem ownerAt_iff : db.ownerAt key = true ↔
    ∃ m, db.organizationMembers.find key = some m ∧ m.activeOwner = true := by
  simp [Db.ownerAt, Option.any_eq_true]

theorem hasOwner_iff : db.hasOwner orgID = true ↔ ∃ userID, db.ownerAt (orgID, userID) = true := by
  simp only [Db.hasOwner, List.any_eq_true, Bool.and_eq_true, decide_eq_true_eq, ownerAt_iff]
  constructor
  · rintro ⟨m, hm, rfl, hOwner⟩
    exact ⟨m.userId, m, Table.mem_rows_iff.mp hm, hOwner⟩
  · rintro ⟨userID, m, hm, hOwner⟩
    obtain ⟨hMem, hKey⟩ := Table.find_eq_some_iff.mp hm
    simp only [OrganizationMember.key, Prod.mk.injEq] at hKey
    exact ⟨m, hMem, hKey.1, hOwner⟩

/-- Among two active owners of an organization, one has another key. -/
theorem exists_other_owner (h : 1 < countOrganizationOwners orgID db) (key : UUID × UUID) :
    ∃ userID, db.ownerAt (orgID, userID) = true ∧ (orgID, userID) ≠ key := by
  obtain ⟨m, hm, hp, hKey⟩ := Table.exists_other h key
  simp only [Bool.and_eq_true, decide_eq_true_eq] at hp
  obtain ⟨rfl, hOwner⟩ := hp
  exact ⟨m.userId, ownerAt_iff.mpr ⟨m, Table.mem_rows_iff.mp hm, hOwner⟩, hKey⟩

/-- The row that a statement may keep from being an active owner's. -/
def Query.dropsOwner : Query → Option (UUID × UUID)
  | .updateOrganizationMemberRole orgID userID role =>
      if role = .owner then none else some (orgID, userID)
  | .updateOrganizationMemberStatus orgID userID status =>
      if status = .active then none else some (orgID, userID)
  | .removeOrganizationMember orgID userID => some (orgID, userID)
  | _ => none

theorem ownerAt_apply {q : Query} (hq : q.dropsOwner ≠ some key) (h : db.ownerAt key = true) :
    (q.apply db).ownerAt key = true := by
  obtain ⟨m, hm, hOwner⟩ := ownerAt_iff.mp h
  have hKey : m.key = key := Table.find_key hm
  rw [ownerAt_iff]
  cases q with
  | addOrganizationMember m₁ =>
    refine ⟨m, ?_, hOwner⟩
    simp only [Query.apply]
    cases hIns : db.organizationMembers.insert m₁ with
    | none => exact hm
    | some t =>
      rw [Option.getD_some, Table.find_insert hIns, if_neg, hm]
      rintro rfl
      rw [Table.find_of_insert hIns] at hm
      cases hm
  | updateOrganizationMemberRole orgID userID role =>
    refine ⟨if m.key = (orgID, userID) then m.setRole role else m, ?_, ?_⟩
    · simp [Query.apply, hm]
    · split
      · next hSame =>
        have hRole : role = .owner := by
          by_contra hRole
          simp [Query.dropsOwner, hRole, ← hKey, hSame] at hq
        simp only [OrganizationMember.activeOwner, Bool.and_eq_true, decide_eq_true_eq] at hOwner
        simp [OrganizationMember.activeOwner, OrganizationMember.setRole, hRole, hOwner.2]
      · exact hOwner
  | updateOrganizationMemberStatus orgID userID status =>
    refine ⟨if m.key = (orgID, userID) then m.setStatus status else m, ?_, ?_⟩
    · simp [Query.apply, hm]
    · split
      · next hSame =>
        have hStatus : status = .active := by
          by_contra hStatus
          simp [Query.dropsOwner, hStatus, ← hKey, hSame] at hq
        simp only [OrganizationMember.activeOwner, Bool.and_eq_true, decide_eq_true_eq] at hOwner
        simp [OrganizationMember.activeOwner, OrganizationMember.setStatus, hStatus, hOwner.1]
      · exact hOwner
  | removeOrganizationMember orgID userID =>
    refine ⟨m, ?_, hOwner⟩
    have hne : m.key ≠ (orgID, userID) := by
      rintro hSame
      simp [Query.dropsOwner, ← hKey, hSame] at hq
    simp [Query.apply, hm, hne]
  | _ => exact ⟨m, hm, hOwner⟩

theorem ownerAt_applyAll {qs : List Query} (hqs : ∀ q ∈ qs, q.dropsOwner ≠ some key)
    (h : db.ownerAt key = true) : (TxnStore.applyAll Query.apply qs db).ownerAt key = true := by
  induction qs generalizing db with
  | nil => exact h
  | cons q qs ih =>
    rw [List.forall_mem_cons] at hqs
    exact ih hqs.2 (ownerAt_apply hqs.1 h)

end Owners

/-! What a request's history says about its transaction. -/

/-- The writes of the open transaction after one more event. -/
def track (pending : Option (List Query)) : Prog.Event Op Op.Resp → Option (List Query)
  | ⟨.begin, .ok ()⟩ => some []
  | ⟨.tx q, .ok _⟩ => if q.isRead then pending else some (pending.getD [] ++ [q])
  | ⟨.commit, _⟩ => none
  | ⟨.rollback, _⟩ => none
  | _ => pending

/-- The writes of the open transaction. -/
def History.pending (h : History) : Option (List Query) := h.foldl track none

@[simp] theorem History.pending_append (h : History) (e : Prog.Event Op Op.Resp) :
    History.pending (h ++ [e]) = track h.pending e := by
  simp [History.pending, List.foldl_append]

theorem exec_pending {i : Nat} {failure : Option DbError} {o : Op} {s t : Store Nat} {r : o.Resp}
    (h : exec i failure o s = some (r, t)) :
    t.pending i = track (s.pending i) ⟨o, r⟩ ∧ ∀ j, j ≠ i → t.pending j = s.pending j := by
  cases o with
  | conn q =>
    obtain ⟨rfl, _⟩ | ⟨a, rfl, _, rfl⟩ := exec_conn h <;> exact ⟨rfl, fun j _ => rfl⟩
  | begin =>
    obtain ⟨rfl, e, rfl⟩ | ⟨rfl, rfl⟩ := exec_begin h
    · exact ⟨rfl, fun j _ => rfl⟩
    · exact ⟨TxnStore.begin_pending .., fun j hj => Function.update_of_ne hj ..⟩
  | tx q =>
    obtain ⟨rfl, e, rfl⟩ | ⟨a, rfl, _, rfl⟩ := exec_tx h
    · exact ⟨rfl, fun j _ => rfl⟩
    · by_cases hq : q.isRead
      · simp [track, hq]
      · simp only [track, hq]
        exact ⟨TxnStore.write_pending .., fun j hj => Function.update_of_ne hj ..⟩
  | commit =>
    obtain ⟨rfl, e, rfl⟩ | ⟨rfl, rfl⟩ := exec_commit h
    · exact ⟨TxnStore.rollback_pending .., fun j hj => Function.update_of_ne hj ..⟩
    · exact ⟨TxnStore.commit_pending .., fun j hj => Function.update_of_ne hj ..⟩
  | rollback =>
    rw [exec_rollback h]
    exact ⟨TxnStore.rollback_pending .., fun j hj => Function.update_of_ne hj ..⟩

/-- The row under `key` has been read, and if it was an active owner's, more than one were
counted. -/
def Guarded (h : History) (key : UUID × UUID) : Prop :=
  ∃ m, ⟨.tx (.getOrganizationMember key.1 key.2), .ok m⟩ ∈ h ∧
    (m.activeOwner = true → ∃ n, 1 < n ∧ ⟨.tx (.countOrganizationOwners key.1), .ok n⟩ ∈ h)

/-- What the requests make sure of before they do something: outside of transactions they only
read, and a transaction that is committed drops at most one owner, after the guard. -/
def Justified (h : History) : Op → Prop
  | .conn q => q.isRead = true
  | .commit => ∃ key, ∀ q ∈ (History.pending h).getD [], ∀ k, q.dropsOwner = some k →
      k = key ∧ Guarded h key
  | .begin | .tx _ | .rollback => True

/-- A request, or a part of it, whose operations are justified by the history they add to. -/
abbrev Justifies {α : Type} (x : Handler α) (ok : α → History → Prop) (h : History) : Prop :=
  Prog.Meets (fun o h r h' => h' = h ++ [⟨o, r⟩]) Justified x ok (fun _ => True) h

section Justifies

variable {α β : Type} {h : History}

/-- Reads add to the history and leave the transaction's writes as they are. -/
theorem justifies_onlyReads {x : Handler α} (hx : x.OnlyReads) :
    Justifies x (fun _ h' => h ⊆ h' ∧ History.pending h' = History.pending h) h := by
  refine (Prog.Performs.meets (I := fun h' => h ⊆ h' ∧ History.pending h' = History.pending h)
    hx ?_ ?_ ⟨fun _ => id, rfl⟩).mono (fun _ _ => id) fun _ _ => trivial
  · intro h' o hRead _
    cases o with
    | conn q => exact hRead
    | tx q => trivial
    | begin | commit | rollback => cases hRead
  · rintro o h₁ r _ hRead ⟨hSub, hPending⟩ rfl
    refine ⟨fun e he => List.mem_append_left _ (hSub he), ?_⟩
    rw [History.pending_append, ← hPending]
    cases o with
    | conn q => rfl
    | tx q =>
      have hq : q.isRead = true := hRead
      cases r <;> simp [track, hq]
    | begin | commit | rollback => cases hRead

theorem justifies_reads_bind {x : Handler α} {f : α → Handler β} {ok : β → History → Prop}
    (hx : x.OnlyReads) (hf : ∀ a h', h ⊆ h' → History.pending h' = History.pending h →
      Justifies (f a) ok h') : Justifies (x >>= f) ok h :=
  (justifies_onlyReads hx).bind (fun a h' hh => hf a h' hh.1 hh.2)

/-- The body of a transaction only has to justify the commit. -/
theorem justifies_withCommitTx {f : Handler α}
    (hf : ∀ h, History.pending h = some [] → Justifies f (fun _ h' => Justified h' .commit) h) :
    Justifies (withCommitTx f) (fun _ _ => True) h := by
  refine meets_withCommitTx trivial (fun _ _ _ => trivial) ?_
  rintro t rfl
  have hPending : History.pending (h ++ [⟨.begin, .ok ()⟩]) = some [] := by
    rw [History.pending_append]
    rfl
  refine (hf _ hPending).mono ?_ fun _ _ => ⟨trivial, fun _ _ => trivial⟩
  exact fun a u hCommit => ⟨hCommit, fun _ _ => trivial, fun _ _ _ => ⟨trivial, fun _ _ => trivial⟩⟩

theorem justifies_currentMember {orgID userID : UUID} {missing : String}
    (hPending : History.pending h = some []) :
    Justifies (currentMember orgID userID missing) (fun m h' =>
      ⟨.tx (.getOrganizationMember orgID userID), .ok m⟩ ∈ h' ∧
      History.pending h' = some []) h := by
  refine (Prog.meets_bind _).mpr ((meets_inTx _).mpr ⟨trivial, ?_⟩)
  rintro r t rfl
  rcases r with (_ | _ | _) | m
  · trivial
  · trivial
  · trivial
  · exact ⟨by simp, by simp [track, Query.isRead, hPending]⟩

theorem justifies_requireAnotherOwner {orgID : UUID} {refusal : String} :
    Justifies (requireAnotherOwner orgID refusal) (fun _ h' => h ⊆ h' ∧
      History.pending h' = History.pending h ∧
      ∃ n, 1 < n ∧ ⟨.tx (.countOrganizationOwners orgID), .ok n⟩ ∈ h') h := by
  refine (Prog.meets_bind _).mpr ((meets_inTx _).mpr ⟨trivial, ?_⟩)
  rintro r t rfl
  cases r with
  | error e => trivial
  | ok n =>
    simp only
    split
    · trivial
    · next hn =>
      refine ⟨by simp, ?_, n, Nat.lt_of_not_le hn, by simp⟩
      rw [History.pending_append]
      rfl

theorem Guarded.mono {h' : History} {key : UUID × UUID} (hSub : h ⊆ h') (hGuard : Guarded h key) :
    Guarded h' key := by
  obtain ⟨m, hm, hCount⟩ := hGuard
  refine ⟨m, hSub hm, fun hOwner => ?_⟩
  obtain ⟨n, hn, hMem⟩ := hCount hOwner
  exact ⟨n, hn, hSub hMem⟩

/-- The last statement of a transaction, when the guard has been made for what it drops and the
statements before it drop no one. -/
theorem justifies_lastWrite {q : Query} {qs : List Query}
    (hPending : History.pending h = some qs) (hqs : ∀ q' ∈ qs, q'.dropsOwner = none)
    (hq : q.isRead = false) (hGuard : ∀ key, q.dropsOwner = some key → Guarded h key) :
    Justifies (do orReturn (← inTx q)) (fun _ h' => Justified h' .commit) h := by
  refine (Prog.meets_bind _).mpr ((meets_inTx _).mpr ⟨trivial, ?_⟩)
  rintro r t rfl
  cases r with
  | error e => trivial
  | ok a =>
    refine (meets_orReturn _).mpr ⟨q.dropsOwner.getD (0, 0), fun q' hq' key hDrop => ?_⟩
    simp only [History.pending_append, track, hq, hPending, Option.getD_some, Bool.false_eq_true,
      if_false, List.mem_append, List.mem_singleton] at hq'
    obtain hq' | rfl := hq'
    · rw [hqs q' hq'] at hDrop
      cases hDrop
    · rw [hDrop]
      exact ⟨rfl, (hGuard key hDrop).mono fun e he => List.mem_append_left _ he⟩

end Justifies

section Handlers

variable {h : History} (ctx : Option Claims) (orgID userID : UUID)

theorem updateOrganizationMemberRole_justifies (role : OrganizationRole) :
    Justifies (updateOrganizationMemberRole ctx orgID userID role) (fun _ _ => True) h := by
  refine meets_orConnectDBError (justifies_withCommitTx fun h hPending => ?_)
  refine (justifies_currentMember hPending).bind ?_
  rintro current h₁ ⟨hRead, hPending⟩
  refine justifies_reads_bind (requireOrgRole_onlyReads ..) fun _ h₂ hSub hPending₂ => ?_
  rw [hPending] at hPending₂
  split
  · refine justifies_requireAnotherOwner.bind ?_
    rintro _ h₃ ⟨hSub₃, hPending₃, hCount⟩
    refine justifies_lastWrite (hPending₃.trans hPending₂) (by simp) rfl fun key hDrop => ?_
    simp only [Query.dropsOwner, Option.ite_none_left_eq_some, Option.some.injEq] at hDrop
    obtain ⟨_, rfl⟩ := hDrop
    exact ⟨current, hSub₃ (hSub hRead), fun _ => hCount⟩
  · next hKeeps =>
    refine justifies_lastWrite hPending₂ (by simp) rfl fun key hDrop => ?_
    simp only [Query.dropsOwner, Option.ite_none_left_eq_some, Option.some.injEq] at hDrop
    obtain ⟨hRole, rfl⟩ := hDrop
    refine ⟨current, hSub hRead, fun hOwner => absurd ?_ hKeeps⟩
    simp only [OrganizationMember.activeOwner, Bool.and_eq_true, decide_eq_true_eq] at hOwner
    exact ⟨hOwner.1, hRole, hOwner.2⟩

theorem updateOrganizationMemberStatus_justifies (status : MemberStatus) :
    Justifies (updateOrganizationMemberStatus ctx orgID userID status) (fun _ _ => True) h := by
  refine meets_orConnectDBError (justifies_withCommitTx fun h hPending => ?_)
  refine (justifies_currentMember hPending).bind ?_
  rintro current h₁ ⟨hRead, hPending⟩
  -- A statement that drops the row's owner needs the guard only for an active owner.
  have hWrite : ∀ h₂ : History, h₁ ⊆ h₂ → History.pending h₂ = some [] →
      (current.activeOwner = true → status ≠ .active →
        ∃ n, 1 < n ∧ ⟨.tx (.countOrganizationOwners orgID), .ok n⟩ ∈ h₂) →
      Justifies (do orReturn (← inTx (.updateOrganizationMemberStatus orgID userID status)))
        (fun _ h' => Justified h' .commit) h₂ := by
    intro h₂ hSub hPending₂ hCount
    refine justifies_lastWrite hPending₂ (by simp) rfl fun key hDrop => ?_
    simp only [Query.dropsOwner, Option.ite_none_left_eq_some, Option.some.injEq] at hDrop
    obtain ⟨hStatus, rfl⟩ := hDrop
    exact ⟨current, hSub hRead, fun hOwner => hCount hOwner hStatus⟩
  split
  · refine justifies_reads_bind (requireOrgRole_onlyReads ..) fun _ h₂ hSub hPending₂ => ?_
    rw [hPending] at hPending₂
    split
    · refine justifies_requireAnotherOwner.bind ?_
      rintro _ h₃ ⟨hSub₃, hPending₃, hCount⟩
      exact hWrite h₃ (fun e he => hSub₃ (hSub he)) (hPending₃.trans hPending₂) fun _ _ => hCount
    · next hKeeps =>
      refine hWrite h₂ hSub hPending₂ fun hOwner hStatus => absurd ?_ hKeeps
      simp only [OrganizationMember.activeOwner, Bool.and_eq_true, decide_eq_true_eq] at hOwner
      exact ⟨hStatus, hOwner.2⟩
  · next hRole =>
    refine justifies_reads_bind (requireOrgRole_onlyReads ..) fun _ h₂ hSub hPending₂ => ?_
    refine hWrite h₂ hSub (hPending₂.trans hPending) fun hOwner _ => absurd ?_ hRole
    simp only [OrganizationMember.activeOwner, Bool.and_eq_true, decide_eq_true_eq] at hOwner
    exact hOwner.1

theorem removeOrganizationMember_justifies :
    Justifies (removeOrganizationMember ctx orgID userID) (fun _ _ => True) h := by
  refine justifies_reads_bind (requireMayRemove_onlyReads ..) fun _ h _ _ => ?_
  refine (meets_orConnectDBError (justifies_withCommitTx
    fun h hPending => ?_)).bind ?_
  · refine (justifies_currentMember hPending).bind ?_
    rintro target h₁ ⟨hRead, hPending⟩
    have hWrites : ∀ h₂ : History, h₁ ⊆ h₂ → History.pending h₂ = some [] →
        (target.activeOwner = true →
          ∃ n, 1 < n ∧ ⟨.tx (.countOrganizationOwners orgID), .ok n⟩ ∈ h₂) →
        Justifies (removeWithCourseMemberships orgID userID)
          (fun _ h' => Justified h' .commit) h₂ := by
      intro h₂ hSub hPending₂ hCount
      refine (Prog.meets_bind _).mpr ((meets_inTx _).mpr ⟨trivial, ?_⟩)
      rintro r t rfl
      cases r with
      | error e => trivial
      | ok n =>
        have hCascade : History.pending (h₂ ++ [⟨.tx (.removeCourseMembershipsForUserInOrg orgID
            userID), .ok n⟩]) = some [.removeCourseMembershipsForUserInOrg orgID userID] := by
          simp [track, Query.isRead, hPending₂]
        refine justifies_lastWrite hCascade (by simp [Query.dropsOwner]) rfl fun key hDrop => ?_
        cases hDrop
        exact Guarded.mono (fun e he => List.mem_append_left _ he) ⟨target, hSub hRead, hCount⟩
    split
    · refine justifies_requireAnotherOwner.bind ?_
      rintro _ h₃ ⟨hSub, hPending₃, hCount⟩
      exact hWrites h₃ hSub (hPending₃.trans hPending) fun _ => hCount
    · next hKeeps =>
      refine hWrites h₁ (fun _ => id) hPending fun hOwner => absurd ?_ hKeeps
      simpa only [OrganizationMember.activeOwner, Bool.and_eq_true, decide_eq_true_eq] using hOwner
  · intro rowsAffected t _
    split <;> trivial

theorem MemberChange.justifies (change : MemberChange) :
    Justifies (change.handler ctx) (fun _ _ => True) h := by
  cases change with
  | role orgID userID newRole =>
    exact (updateOrganizationMemberRole_justifies ..).bind
      (fun _ _ => id)
  | status orgID userID newStatus =>
    exact (updateOrganizationMemberStatus_justifies ..).bind
      (fun _ _ => id)
  | remove orgID userID => exact removeOrganizationMember_justifies ..

end Handlers

/-- The store carries the writes that the histories tell of, and the organization has an active
owner. -/
structure Owned (orgID : UUID) (s : Store Nat) (hist : Nat → History) : Prop where
  pending : ∀ i, s.pending i = History.pending (hist i)
  owner : s.committed.hasOwner orgID = true

/-- A commit whose guard still holds leaves the organization an active owner. -/
theorem hasOwner_of_commit {orgID : UUID} {db : Db} {h : History}
    (hJustified : Justified h .commit) (hHolds : ∀ e ∈ h, stillHolds db e = true)
    (hOwner : db.hasOwner orgID = true) :
    (TxnStore.applyAll Query.apply ((History.pending h).getD []) db).hasOwner orgID = true := by
  obtain ⟨key, hKey⟩ := hJustified
  -- Someone other than whom the transaction drops is an active owner.
  obtain ⟨userID, hAt, hne⟩ : ∃ userID, db.ownerAt (orgID, userID) = true ∧
      ∀ q ∈ (History.pending h).getD [], q.dropsOwner ≠ some (orgID, userID) := by
    obtain ⟨userID, hAt⟩ := hasOwner_iff.mp hOwner
    by_cases hDropped : ∃ q ∈ (History.pending h).getD [], q.dropsOwner = some (orgID, userID)
    · obtain ⟨q, hq, hDrop⟩ := hDropped
      obtain ⟨rfl, m, hm, hCount⟩ := hKey q hq _ hDrop
      have hActive : m.activeOwner = true := by
        have := hHolds _ hm
        simpa [stillHolds, hAt] using this
      obtain ⟨n, hn, hMem⟩ := hCount hActive
      have hLeft : n ≤ countOrganizationOwners orgID db := by
        have := hHolds _ hMem
        simpa [stillHolds] using this
      obtain ⟨other, hOther, hNe⟩ :=
        exists_other_owner (Nat.lt_of_lt_of_le hn hLeft) (orgID, userID)
      exact ⟨other, hOther, fun q hq hDrop => hNe (hKey q hq _ hDrop).1⟩
    · push Not at hDropped
      exact ⟨userID, hAt, hDropped⟩
  exact hasOwner_iff.mpr ⟨userID, ownerAt_applyAll hne hAt⟩

theorem step_owned {orgID : UUID} {p : Requests} {i : Nat} {failure : Option DbError} {o : Op}
    {r : o.Resp} {s : Store Nat} (hG : readsStillHold p (i, failure) = true)
    (hNext : p.next i = some o) (hJustified : Justified (p.hist i) o)
    (h : Owned orgID p.store p.hist) (hExec : exec i failure o p.store = some (r, s)) :
    Owned orgID s (Function.update p.hist i (p.hist i ++ [⟨o, r⟩])) := by
  obtain ⟨hSelf, hOthers⟩ := exec_pending hExec
  refine ⟨fun j => ?_, ?_⟩
  · by_cases hj : j = i
    · subst hj
      rw [hSelf, h.pending, Function.update_self, History.pending_append]
    · rw [hOthers j hj, h.pending, Function.update_of_ne hj]
  · cases o with
    | conn q => rw [(exec_conn_read hJustified hExec).1]; exact h.owner
    | begin => obtain ⟨rfl, _⟩ | ⟨_, rfl⟩ := exec_begin hExec <;> exact h.owner
    | tx q =>
      obtain ⟨rfl, _⟩ | ⟨a, _, _, rfl⟩ := exec_tx hExec
      · exact h.owner
      · split <;> exact h.owner
    | commit =>
      obtain ⟨rfl, _⟩ | ⟨_, rfl⟩ := exec_commit hExec
      · exact h.owner
      · have hHolds : ∀ e ∈ p.hist i, stillHolds p.store.committed e = true := by
          simpa [readsStillHold, hNext] using hG
        rw [TxnStore.commit_committed, TxnStore.view, h.pending]
        exact hasOwner_of_commit hJustified hHolds h.owner
    | rollback => rw [exec_rollback hExec]; exact h.owner

/-- In every run of requests side by side in which a transaction only commits while what its guard
has read still lets the guard pass, an organization that has an active owner keeps one. -/
theorem organization_keeps_an_owner {orgID : UUID} {db : Db}
    {request : Nat → Option Claims × MemberChange} {steps : List (Nat × Option DbError)}
    {p : Requests} (hStart : db.hasOwner orgID = true)
    (hRun : requests.Runs (fun p a => readsStillHold p a = true) (.start db request) steps p) :
    p.store.committed.hasOwner orgID = true := by
  refine (Pool.runs_invariant (P := fun _ => Justified) (Q := fun _ _ _ => True)
    (I := Owned orgID) ?_ hRun ?_ ⟨fun _ => rfl, hStart⟩).1.owner
  · exact fun p i w o r s hG hNext hJustified hI hExec => step_owned hG hNext hJustified hI hExec
  · exact fun i => Prog.Ensures.mono ((request i).2.justifies (request i).1) (fun _ _ => id)
      fun _ _ _ => trivial

/-- An organization with two owners. -/
def partnership : Db where
  organizationMembers := .ofList [⟨1, 100, .owner, .active⟩, ⟨1, 101, .owner, .active⟩]
  courses := .empty
  courseMembers := .empty
  courseJoinRequests := .empty

/-- Each owner wants the other one demoted. -/
def demotions : Nat → Option Claims × MemberChange
  | 0 => (some ⟨100, .normal, .active⟩, .role 1 101 .admin)
  | _ => (some ⟨101, .normal, .active⟩, .role 1 100 .admin)

/-- The first request alone: `BEGIN`, the row, the caller's role, the count, the update and
`COMMIT`. -/
def inTurn : List (Nat × Option DbError) := List.replicate 6 (0, none)

theorem organization_keeps_an_owner_partnership :
    ∃ p, requests.run (.start partnership demotions) inTurn = some p ∧
      p.store.committed.hasOwner 1 = true :=
  ⟨_, rfl, @organization_keeps_an_owner 1 partnership demotions inTurn _ rfl
    (Machine.Runs.of_restrict rfl)⟩

/-- Both requests count two owners before either commits. -/
def bothCount : List (Nat × Option DbError) :=
  List.replicate 5 (0, none) ++ List.replicate 5 (1, none) ++ [(0, none), (1, none)]

/-- Two owners demote each other at once, and the organization is left without one. -/
theorem concurrent_demotions_leave_no_owner :
    ¬ ∀ (orgID : UUID) (db : Db) (request : Nat → Option Claims × MemberChange)
      (steps : List (Nat × Option DbError)) (p : Requests), db.hasOwner orgID = true →
      requests.run (.start db request) steps = some p →
      p.store.committed.hasOwner orgID = true := by
  intro h
  have := h 1 partnership demotions bothCount _ rfl rfl
  revert this
  decide

end Richter.Members
